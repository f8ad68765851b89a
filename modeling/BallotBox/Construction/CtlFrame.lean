import BallotBox.Framework.Binary
import BallotBox.Framework.BoundedOutput
import BallotBox.Framework.Descriptors

/-!
# The frames of the control channel

`ctl_frame.h`: a message is a length in four bytes and that many bytes of payload.  A stream that
ends is told apart by whether any byte of what was asked for had arrived.
-/

namespace BallotBox

abbrev ctlMaxFrame : ℕ := 65536

abbrev ctlPrefixLen : ℕ := 4

/-- What the functions return: 0, -1 or -2. -/
inductive CtlStatus
  | ok | error | closed
deriving DecidableEq

set_option linter.unusedVariables false in
def ctlWriteAll (fd : Sink) (p : Bytes) : CtlStatus × Sink :=
  if hp : p = [] then (.ok, fd)
  else
    match h : fd.write p with
    | (.moved n, fd') => ctlWriteAll fd' (p.drop n)
    | (.interrupted, fd') => ctlWriteAll fd' p
    | (.failed, fd') => (.error, fd')
termination_by p.length + fd.answers.length
decreasing_by
  · have hcases := fd.write_cases hp
    rw [h] at hcases
    cases hcases with
    | chunk hpos hfits _ hcount _ =>
      rw [List.length_drop]
      omega
  · have hcases := fd.write_cases hp
    rw [h] at hcases
    cases hcases with
    | interrupted _ hcount _ => omega

set_option linter.unusedVariables false in
/-- `ctl_read_all`, with `len` of the `want` bytes still to come. -/
def ctlReadAll (want len : ℕ) (fd : Source) (p : Cursor UInt8) :
    CtlStatus × Source × Cursor UInt8 :=
  if hlen : len = 0 then (.ok, fd, p)
  else
    match h : fd.read len with
    | (.moved chunk, fd') =>
      if hend : chunk = [] then (if len = want then .closed else .error, fd', p)
      else ctlReadAll want (len - chunk.length) fd' (p.write chunk)
    | (.interrupted, fd') => ctlReadAll want len fd' p
    | (.failed, fd') => (.error, fd', p)
termination_by len + fd.answers.length
decreasing_by
  · have hcases := fd.read_cases (Nat.pos_of_ne_zero hlen)
    rw [h] at hcases
    cases hcases with
    | chunk _ hfits _ hcount _ =>
      have hpos := List.length_pos_iff.mpr hend
      omega
  · have hcases := fd.read_cases (Nat.pos_of_ne_zero hlen)
    rw [h] at hcases
    cases hcases with
    | interrupted _ hcount _ => omega

def ctlFrameWrite (fd : Sink) (buf : Bytes) : CtlStatus × Sink :=
  match ctlWriteAll fd (bigEndian ctlPrefixLen buf.length) with
  | (.ok, fd') => ctlWriteAll fd' buf
  | (_, fd') => (.error, fd')

/-- What `ctl_frame_read` leaves: its status, `*len` if it set it, the memory behind `buf`, the
stream. -/
structure FrameRead where
  status : Except CtlStatus ℕ
  buf : ℕ → UInt8
  fd : Source

def ctlFrameRead (fd : Source) (buf : ℕ → UInt8) (cap : ℕ) : FrameRead :=
  -- the prefix is an array of its own
  match ctlReadAll ctlPrefixLen ctlPrefixLen fd ⟨fun _ => 0, 0⟩ with
  | (.ok, fd', p) =>
    let n := ofBigEndian ((List.range ctlPrefixLen).map p.mem)
    if n = 0 ∨ cap < n then ⟨.error .error, buf, fd'⟩
    else
      match ctlReadAll n n fd' ⟨buf, 0⟩ with
      | (.ok, fd'', p') => ⟨.ok n, p'.mem, fd''⟩
      | (_, fd'', p') => ⟨.error .error, p'.mem, fd''⟩
  | (rc, fd', _) => ⟨.error rc, buf, fd'⟩

end BallotBox
