import Mathlib.Tactic

/-!
# The serial port

`SerialPort` is the only class that touches the descriptor: bytes in and bytes out, and an account
of the last error. What the system calls answer is not decided here. A `Device` answers the writes,
in any way that keeps to the contract of `::write` and does not put a caller off forever; what
`::open` and `::read` answer is an argument.

## Main definitions

* `Device`: the answers of `::write`
* `SerialPort`: the port, with what has gone out through it
* `SerialPort.openDevice`, `SerialPort.close`, `SerialPort.read`, `SerialPort.write`

## Main results

* `SerialPort.write_spec`: a write sends all of its bytes, or a proper prefix of them and fails
-/

namespace Ds10Driver

/-! ## The system calls -/

/-- The values of `errno` that the port tells apart; any other is given by its description. -/
inductive Errno where
  | eagain
  | ewouldblock
  | eintr
  | other (description : String)
  deriving DecidableEq, Repr

/-- The description of an error. -/
def Errno.strerror : Errno → String
  | .eagain | .ewouldblock => "Resource temporarily unavailable"
  | .eintr => "Interrupted system call"
  | .other description => description

/-- The errors after which the call is worth repeating. -/
def Errno.isTransient : Errno → Bool
  | .eagain | .ewouldblock | .eintr => true
  | .other _ => false

/-- How far opening a device gets. -/
inductive SysOpen where
  | openFailed (errno : Errno)
  | tcgetattrFailed (errno : Errno)
  | tcsetattrFailed (errno : Errno)
  | opened
  deriving DecidableEq, Repr

/-- What `::read` answers: bytes, none if there are none right now, or an error. -/
inductive SysRead where
  | bytes (chunk : List UInt8)
  | error (errno : Errno)
  deriving DecidableEq, Repr

/-- What `::write` answers, and the `errno` it leaves. -/
structure SysWrite where
  result : ℤ
  errno : Errno
  deriving DecidableEq, Repr

/-- The caller is put off. -/
def SysWrite.isTransient (r : SysWrite) : Bool :=
  decide (r.result < 0) && r.errno.isTransient

/-- The device behind the descriptor: its answer to the `k`-th `::write`, which asks it to take
`request`. It takes no more than it is asked to, and puts its callers off finitely often only. -/
structure Device where
  write : ℕ → List UInt8 → SysWrite
  write_le : ∀ k request, (write k request).result ≤ request.length
  settledFrom : ℕ
  settled : ∀ k request, settledFrom ≤ k → (write k request).isTransient = false

/-! ## The port -/

/-- Outcome of a read attempt. -/
inductive ReadStatus where
  | kOk
  | kDisconnected
  deriving DecidableEq, Repr

/-- The port: the descriptor, the device's name and the last error; and, seen from the device, the
bytes that have gone out and the number of writes asked for. -/
structure SerialPort where
  isOpen : Bool := false
  device : String := ""
  lastError : String := ""
  sent : List UInt8 := []
  writeCalls : ℕ := 0
  deriving DecidableEq, Repr

/-- There is a termios constant for the rate. -/
def hasBaudConstant (baud : ℤ) : Bool :=
  baud ∈ [9600, 19200, 38400, 57600, 115200, 230400, 460800, 921600]

namespace SerialPort

/-- Close the descriptor if it is open. -/
def close (s : SerialPort) : SerialPort := { s with isOpen := false }

/-- Open a device; what was open before is closed first, whether or not this succeeds. -/
def openDevice (s : SerialPort) (device : String) (baud : ℤ) (r : SysOpen) : SerialPort × Bool :=
  let s := s.close
  if !hasBaudConstant baud then
    ({ s with lastError := s!"unsupported baud rate: {baud}" }, false)
  else
    match r with
    | .openFailed e =>
      ({ s with lastError := "open(" ++ device ++ ") failed: " ++ e.strerror }, false)
    | .tcgetattrFailed e => ({ s with lastError := "tcgetattr failed: " ++ e.strerror }, false)
    | .tcsetattrFailed e => ({ s with lastError := "tcsetattr failed: " ++ e.strerror }, false)
    | .opened => ({ s with isOpen := true, device := device, lastError := "" }, true)

/-- Read whatever is available. -/
def read (s : SerialPort) (r : SysRead) : SerialPort × ReadStatus × List UInt8 :=
  if !s.isOpen then (s, .kDisconnected, [])
  else
    match r with
    | .bytes chunk => (s, .kOk, chunk)
    | .error e =>
      if e.isTransient then (s, .kOk, [])
      else ({ s with lastError := "read failed: " ++ e.strerror }, .kDisconnected, [])

/-- The device's answer to the next write. -/
def ask (d : Device) (s : SerialPort) (request : List UInt8) : SysWrite :=
  d.write s.writeCalls request

theorem lt_settledFrom {d : Device} {s : SerialPort} {request : List UInt8}
    (h : (s.ask d request).isTransient = true) : s.writeCalls < d.settledFrom := by
  by_contra hge
  rw [ask, d.settled _ _ (not_lt.mp hge)] at h
  cases h

theorem ask_toNat_le (d : Device) (s : SerialPort) (request : List UInt8) :
    (s.ask d request).result.toNat ≤ request.length :=
  Int.toNat_le.mpr (d.write_le _ _)

/-- The port after a write of which the device took `n` bytes. -/
def took (s : SerialPort) (request : List UInt8) (n : ℕ) : SerialPort :=
  { s with sent := s.sent ++ request.take n, writeCalls := s.writeCalls + 1 }

/-- The loop of `write`, with the first `written` bytes of `data` gone. -/
def writeLoop (d : Device) (s : SerialPort) (data : List UInt8) (written : ℕ) :
    SerialPort × Bool :=
  if _hleft : written < data.length then
    let request := data.drop written
    let r := s.ask d request
    if _hsome : r.result > 0 then
      writeLoop d (s.took request r.result.toNat) data (written + r.result.toNat)
    else if _hretry : r.isTransient then writeLoop d (s.took request 0) data written
    -- A result of zero ends here as well, with whatever `errno` was left.
    else ({ s.took request 0 with lastError := "write failed: " ++ r.errno.strerror }, false)
  else (s, true)
termination_by (data.length - written) + (d.settledFrom - s.writeCalls)
decreasing_by
  · have hsome : 0 < (s.ask d (data.drop written)).result := _hsome
    simp only [took]
    omega
  · have hlt := lt_settledFrom _hretry
    simp only [took]
    omega

/-- Write all bytes. -/
def write (d : Device) (s : SerialPort) (data : List UInt8) : SerialPort × Bool :=
  if !s.isOpen then ({ s with lastError := "write on closed port" }, false)
  else writeLoop d s data 0

/-! ## Opening, closing and reading send nothing -/

@[simp] theorem close_sent (s : SerialPort) : s.close.sent = s.sent := rfl

@[simp] theorem openDevice_sent (s : SerialPort) (device : String) (baud : ℤ) (r : SysOpen) :
    (s.openDevice device baud r).1.sent = s.sent := by
  unfold openDevice
  split
  · rfl
  · cases r <;> rfl

@[simp] theorem read_sent (s : SerialPort) (r : SysRead) : (s.read r).1.sent = s.sent := by
  unfold read
  split
  · rfl
  · split
    · rfl
    · split <;> rfl

/-- A failed read brings nothing. -/
theorem read_of_disconnected {s : SerialPort} {r : SysRead}
    (h : (s.read r).2.1 = .kDisconnected) : (s.read r).2.2 = [] := by
  revert h
  unfold read
  split
  · exact fun _ => rfl
  · split
    · intro h
      cases h
    · split <;> exact fun _ => rfl

/-! ## What a write sends -/

@[simp] theorem took_sent (s : SerialPort) (request : List UInt8) (n : ℕ) :
    (s.took request n).sent = s.sent ++ request.take n := rfl

/-- What the loop sends is a front of what was left, all of it when the loop succeeds and a proper
one when it fails. -/
theorem writeLoop_spec (d : Device) (s : SerialPort) (data : List UInt8) (written : ℕ)
    (h : written ≤ data.length) :
    ∃ n, written + n ≤ data.length ∧
      (writeLoop d s data written).1.sent = s.sent ++ (data.drop written).take n ∧
      ((writeLoop d s data written).2 = true ↔ written + n = data.length) := by
  fun_induction writeLoop d s data written with
  | case1 s written hleft request r hsome ih =>
    -- The device took some bytes; the rest is written from where they end.
    have hle : r.result.toNat ≤ request.length := ask_toNat_le d s request
    have hrequest : request.length = data.length - written := List.length_drop
    obtain ⟨n, hn, hsent, hdone⟩ := ih (by omega)
    refine ⟨r.result.toNat + n, by omega, ?_, ?_⟩
    · rw [hsent, took_sent, List.append_assoc, ← List.drop_drop, ← List.take_add]
    · rw [hdone, Nat.add_assoc]
  | case2 s written hleft request r hsome hretry ih =>
    obtain ⟨n, hn, hsent, hdone⟩ := ih h
    refine ⟨n, hn, ?_, hdone⟩
    rw [hsent, took_sent, List.take_zero, List.append_nil]
  | case3 s written hleft request r hsome hretry =>
    refine ⟨0, by omega, by simp, ?_⟩
    simp only [Bool.false_eq_true, false_iff]
    omega
  | case4 s written hleft =>
    refine ⟨0, by omega, by simp, ?_⟩
    simp only [true_iff]
    omega

/-- **What a write sends**: all of its bytes, or a proper prefix of them and it fails. -/
theorem write_spec (d : Device) (s : SerialPort) {data : List UInt8} (hdata : data ≠ []) :
    ∃ part, (s.write d data).1.sent = s.sent ++ part ∧ part <+: data ∧
      ((s.write d data).2 = true ↔ part = data) := by
  rw [write]
  split
  · exact ⟨[], by simp, List.nil_prefix, by simpa using hdata.symm⟩
  · obtain ⟨n, hn, hsent, hdone⟩ := writeLoop_spec d s data 0 (Nat.zero_le _)
    refine ⟨data.take n, hsent, List.take_prefix n data, ?_⟩
    rw [hdone, List.take_eq_self_iff]
    omega

end SerialPort

end Ds10Driver
