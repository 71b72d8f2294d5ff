import DS10Link.Relay.Master

/-!
# The responder at the keyboard

`ds10_relay_responder_interactive.py` lets its user answer the requests. The receive callback puts
them into a queue; the main thread takes one at a time, asks for the reply and for the station to
forward it to, and sends. An empty line repeats the payload of the request, and a reply that is too
long is cut.

## Main definitions

* `askDst`: the station, asked for until it is legal
* `InteractiveResponder`, `InteractiveResponder.step`: the queue and the two threads

## Main results

* `inOrder_afterRun`: the replies answer the requests in the order in which they came
-/

open Word

namespace Ds10Relay

open Transaction

/-- A request in the queue. -/
structure QueuedRequest where
  txn : ℕ
  payload : List UInt8
  functionCode : UInt8
  deriving DecidableEq, Repr

/-- What the user enters for a station. -/
inductive DstInput where
  | blank
  | text
  | number (n : ℤ)
  deriving DecidableEq, Repr

/-- `ask_dst`: asked for until it is legal; nothing when the input ends. -/
def askDst (defaultDst : UInt8) : List DstInput → Option UInt8
  | [] => none
  | .blank :: _ => some defaultDst
  | .text :: more => askDst defaultDst more
  | .number n :: more =>
    if n = 0 ∨ 1 ≤ n ∧ n ≤ 247 then some (UInt8.ofNat n.toNat) else askDst defaultDst more

/-- Where the main thread is: waiting for a request, at the prompt with one, or ended. -/
inductive OperatorPlace where
  | idle
  | asking (request : QueuedRequest)
  | ended
  deriving DecidableEq, Repr

structure InteractiveResponder where
  queue : List QueuedRequest := []
  answered : ℕ := 0
  main : OperatorPlace := .idle
  deriving DecidableEq, Repr

namespace InteractiveResponder

/-- `MAX_REPLY_PAYLOAD`. -/
def maxReplyPayload : ℕ := 4091 - 5

/-- The request in a message, if it is one. -/
def requestIn (msg : Frame) : Option QueuedRequest :=
  if msg.data.length < RelayResponder.hdrLen ∨ msg.data.take 2 ≠ RelayResponder.marker then none
  else
    some ⟨(msg.data.getD 2 0).toNat <<< 8 ||| (msg.data.getD 3 0).toNat,
      msg.data.drop RelayResponder.hdrLen, msg.functionCode⟩

/-- The payload of the reply: what was entered, or the request's, cut to what fits. -/
def replyPayload (request : QueuedRequest) (entered : List UInt8) : List UInt8 :=
  let payload := if entered = [] then request.payload else entered
  if payload.length > maxReplyPayload then payload.take maxReplyPayload else payload

/-- The message that `send_reply` publishes. The driver stamps the station. -/
def replyMsg (request : QueuedRequest) (dst : UInt8) (payload : List UInt8) : Frame where
  functionCode := request.functionCode
  data := RelayResponder.replyMarker ++
    [UInt8.ofNat (request.txn >>> 8 &&& 0xFF), UInt8.ofNat (request.txn &&& 0xFF), dst] ++ payload

/-- What happens next: a message is delivered, the main thread takes a request, the user enters a
reply and lines for the station, or ends the script. -/
inductive Action where
  | rx (msg : Frame)
  | next
  | enter (entered : List UInt8) (lines : List DstInput)
  | quit
  deriving DecidableEq, Repr

/-- One action, and what is published. -/
def step (defaultDst : UInt8) (s : InteractiveResponder) :
    Action → InteractiveResponder × List Frame
  | .rx msg => ({ s with queue := s.queue ++ (requestIn msg).toList }, [])
  | .next =>
    match s.main, s.queue with
    | .idle, request :: queue => ({ s with queue := queue, main := .asking request }, [])
    | _, _ => (s, [])
  | .enter entered lines =>
    match s.main with
    | .asking request =>
      match askDst defaultDst lines with
      | none => ({ s with main := .ended }, [])
      | some dst =>
        ({ s with answered := s.answered + 1, main := .idle },
          [replyMsg request dst (replyPayload request entered)])
    | _ => (s, [])
  | .quit => ({ s with main := .ended }, [])

/-- The responder after a run. -/
def afterRun (defaultDst : UInt8) (acts : List Action) : InteractiveResponder :=
  Automaton.stateAfter (step defaultDst) {} acts

/-- The replies of a run. -/
def replies (defaultDst : UInt8) (acts : List Action) : List Frame :=
  Automaton.emitted (step defaultDst) {} acts

/-- The requests of a run, in the order in which they came. -/
def received (acts : List Action) : List QueuedRequest :=
  acts.flatMap fun a =>
    match a with
    | .rx msg => (requestIn msg).toList
    | _ => []

/-- The request that the main thread has taken and not answered. -/
def taken (s : InteractiveResponder) : List QueuedRequest :=
  match s.main with
  | .asking request => [request]
  | _ => []

/-! ## A reply -/

/-- The frame is a reply to the request, to a legal station, that fits the data field. -/
def Answers (request : QueuedRequest) (f : Frame) : Prop :=
  f.functionCode = request.functionCode ∧ f.data.length ≤ kMaxData ∧
    ∃ dst payload, (dst = 0 ∨ 1 ≤ dst ∧ dst ≤ 247) ∧
      f.data = Transaction.reply (UInt16.ofNat request.txn) dst payload

variable {defaultDst : UInt8}

theorem askDst_legal (hdefault : defaultDst = 0 ∨ 1 ≤ defaultDst ∧ defaultDst ≤ 247)
    {lines : List DstInput} {dst : UInt8} (h : askDst defaultDst lines = some dst) :
    dst = 0 ∨ 1 ≤ dst ∧ dst ≤ 247 := by
  fun_induction askDst defaultDst lines with
  | case1 => cases h
  | case2 =>
    obtain rfl := Option.some.inj h
    exact hdefault
  | case3 more ih => exact ih h
  | case4 n more hlegal =>
    obtain rfl := Option.some.inj h
    rcases hlegal with rfl | ⟨hone, hmax⟩
    · exact .inl rfl
    · obtain ⟨k, rfl⟩ := Int.eq_ofNat_of_zero_le (by omega : 0 ≤ n)
      have hk : (UInt8.ofNat k).toNat = k := by
        rw [UInt8.toNat_ofNat']
        omega
      refine .inr ⟨UInt8.le_iff_toNat_le.mpr ?_, UInt8.le_iff_toNat_le.mpr ?_⟩
      · show 1 ≤ (UInt8.ofNat k).toNat
        omega
      · show (UInt8.ofNat k).toNat ≤ 247
        omega
  | case5 n more hnot ih => exact ih h

theorem length_replyPayload_le (request : QueuedRequest) (entered : List UInt8) :
    (replyPayload request entered).length ≤ maxReplyPayload := by
  rw [replyPayload]
  generalize (if entered = [] then request.payload else entered) = payload
  by_cases hlong : payload.length > maxReplyPayload
  · rw [if_pos hlong]
    exact List.length_take_le _ _
  · rw [if_neg hlong]
    exact Nat.not_lt.mp hlong

theorem requestIn_lt {msg : Frame} {request : QueuedRequest} (h : requestIn msg = some request) :
    request.txn < 65536 := by
  rw [requestIn] at h
  split_ifs at h
  obtain rfl := Option.some.inj h
  have hhi := (msg.data.getD 2 0).toNat_lt
  have hlo := (msg.data.getD 3 0).toNat_lt
  dsimp only
  rw [shiftLeft_or]
  omega

/-- The script writes the layout of a reply. -/
theorem data_replyMsg {request : QueuedRequest} (h : request.txn < 65536) (dst : UInt8)
    (payload : List UInt8) :
    (replyMsg request dst payload).data =
      Transaction.reply (UInt16.ofNat request.txn) dst payload := by
  obtain ⟨hhi, hlo⟩ := RelayMaster.headerBytes h
  rw [replyMsg, hhi, hlo]
  rfl

theorem answers_replyMsg (hdefault : defaultDst = 0 ∨ 1 ≤ defaultDst ∧ defaultDst ≤ 247)
    {request : QueuedRequest} (h : request.txn < 65536) {lines : List DstInput} {dst : UInt8}
    (hdst : askDst defaultDst lines = some dst) (entered : List UInt8) :
    Answers request (replyMsg request dst (replyPayload request entered)) := by
  have hdata := data_replyMsg h dst (replyPayload request entered)
  refine ⟨rfl, ?_, dst, _, askDst_legal hdefault hdst, hdata⟩
  rw [hdata, length_reply]
  exact Nat.add_le_of_le_sub (by decide) (length_replyPayload_le request entered)

/-! ## The order of the replies -/

/-- The replies so far answer the first requests, in their order, and the others are in hand or in
the queue. -/
structure InOrder (requests : List QueuedRequest) (replies : List Frame)
    (s : InteractiveResponder) : Prop where
  answers : List.Forall₂ Answers (requests.take s.answered) replies
  answered_le : s.answered ≤ requests.length
  waiting : s.main ≠ .ended → requests.drop s.answered = s.taken ++ s.queue
  bounded : ∀ request ∈ requests, request.txn < 65536

variable {requests : List QueuedRequest} {sent : List Frame} {s : InteractiveResponder}

theorem InOrder.rx (h : InOrder requests sent s) (msg : Frame) :
    InOrder (requests ++ (requestIn msg).toList) sent
      { s with queue := s.queue ++ (requestIn msg).toList } where
  answers := by
    rw [List.take_append_of_le_length h.answered_le]
    exact h.answers
  answered_le := by
    rw [List.length_append]
    exact Nat.le_add_right_of_le h.answered_le
  waiting := by
    intro hmain
    rw [List.drop_append_of_le_length h.answered_le, h.waiting hmain, List.append_assoc]
    rfl
  bounded := by
    intro request hmem
    rcases List.mem_append.mp hmem with hmem | hmem
    · exact h.bounded request hmem
    · exact requestIn_lt (Option.mem_toList.mp hmem)

/-- The request at the prompt is the first one without a reply. -/
theorem InOrder.asking (h : InOrder requests sent s) {request : QueuedRequest}
    (hmain : s.main = .asking request) : requests.drop s.answered = request :: s.queue := by
  rw [h.waiting (by rw [hmain]; nofun), taken, hmain]
  rfl

theorem InOrder.reply (h : InOrder requests sent s) {request : QueuedRequest} {f : Frame}
    (hmain : s.main = .asking request) (hf : Answers request f) :
    InOrder requests (sent ++ [f]) { s with answered := s.answered + 1, main := .idle } := by
  have hdrop := h.asking hmain
  have hget : requests[s.answered]? = some request := by
    rw [← Nat.add_zero s.answered, ← List.getElem?_drop, hdrop]
    rfl
  refine ⟨?_, (List.getElem?_eq_some_iff.mp hget).1, ?_, h.bounded⟩
  · dsimp only
    rw [List.take_add_one, hget]
    exact List.rel_append h.answers (.cons hf .nil)
  · intro _
    dsimp only
    rw [← List.tail_drop, hdrop]
    rfl

theorem InOrder.ended (h : InOrder requests sent s) :
    InOrder requests sent { s with main := .ended } :=
  ⟨h.answers, h.answered_le, fun hmain => absurd rfl hmain, h.bounded⟩

theorem InOrder.step (hdefault : defaultDst = 0 ∨ 1 ≤ defaultDst ∧ defaultDst ≤ 247)
    (h : InOrder requests sent s) (a : Action) :
    InOrder (requests ++ received [a]) (sent ++ (step defaultDst s a).2)
      (step defaultDst s a).1 := by
  cases a with
  | rx msg =>
    have hone : received [.rx msg] = (requestIn msg).toList := List.append_nil _
    rw [hone, InteractiveResponder.step, List.append_nil]
    exact h.rx msg
  | next =>
    show InOrder (requests ++ []) _ _
    rw [List.append_nil]
    cases hmain : s.main with
    | idle =>
      rcases hqueue : s.queue with _ | ⟨request, queue⟩
      · simp only [InteractiveResponder.step, hmain, hqueue, List.append_nil]
        exact h
      · -- The request goes from the queue to the main thread, and stays the next to be answered.
        simp only [InteractiveResponder.step, hmain, hqueue, List.append_nil]
        refine ⟨h.answers, h.answered_le, ?_, h.bounded⟩
        intro _
        rw [h.waiting (by rw [hmain]; nofun), taken, hmain, hqueue]
        rfl
    | asking | ended =>
      simp only [InteractiveResponder.step, hmain, List.append_nil]
      exact h
  | enter entered lines =>
    show InOrder (requests ++ []) _ _
    rw [List.append_nil]
    cases hmain : s.main with
    | asking request =>
      cases hdst : askDst defaultDst lines with
      | none =>
        simp only [InteractiveResponder.step, hmain, hdst, List.append_nil]
        exact h.ended
      | some dst =>
        -- The request that is asked about is the first of those not answered.
        simp only [InteractiveResponder.step, hmain, hdst]
        refine h.reply hmain (answers_replyMsg hdefault (h.bounded request ?_) hdst entered)
        refine List.mem_of_mem_drop (i := s.answered) ?_
        rw [h.asking hmain]
        exact List.mem_cons_self
    | idle | ended =>
      simp only [InteractiveResponder.step, hmain, List.append_nil]
      exact h
  | quit =>
    show InOrder (requests ++ []) (sent ++ []) _
    rw [List.append_nil, List.append_nil]
    exact h.ended

/-- **The replies answer the requests in the order in which they came**, each request once at most,
while requests go on coming in; none is skipped as long as the script runs; and every reply fits the
data field and names a legal station. -/
theorem inOrder_afterRun (hdefault : defaultDst = 0 ∨ 1 ≤ defaultDst ∧ defaultDst ≤ 247)
    (acts : List Action) :
    InOrder (received acts) (replies defaultDst acts) (afterRun defaultDst acts) := by
  induction acts using List.reverseRecOn with
  | nil => exact ⟨.nil, le_rfl, fun _ => rfl, nofun⟩
  | append_singleton acts a ih =>
    have hreceived : received (acts ++ [a]) = received acts ++ received [a] := List.flatMap_append
    rw [hreceived, replies, afterRun, Automaton.emitted_append, Automaton.stateAfter_append,
      Automaton.emitted_cons, Automaton.emitted_nil, List.append_nil]
    exact ih.step hdefault a

/-- Two requests; the second comes while the first is at the prompt. -/
theorem inOrder_afterRun_two :
    let first : Frame := { functionCode := 0x10, data := [0xF1, 0xF1, 0, 1, 0x68] }
    let second : Frame := { functionCode := 0x10, data := [0xF1, 0xF1, 0, 2, 0x69] }
    let acts : List Action :=
      [.rx first, .next, .rx second, .enter [] [.text, .number 300, .number 3], .next,
        .enter [0x6A] [.blank]]
    InOrder (received acts) (replies 2 acts) (afterRun 2 acts) ∧
      (replies 2 acts).map Frame.data =
        [[0xF1, 0xF2, 0, 1, 3, 0x68], [0xF1, 0xF2, 0, 2, 2, 0x6A]] := by
  intro first second acts
  exact ⟨inOrder_afterRun (by decide) acts, by decide⟩

end InteractiveResponder

end Ds10Relay
