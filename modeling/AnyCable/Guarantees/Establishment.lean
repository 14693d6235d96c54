import AnyCable.Source.SseConnection
import Mathlib.Data.List.Induction
import Mathlib.Data.List.TakeWhile

/-!
# What an SSE connection sends around its establishment

Writers, the handler that establishes the connection and whoever closes it take turns at its lock
(`sse/connection.go:46-110`). Whatever the turns are, an established connection has sent the
messages written before it was closed, in the order of the writes and each once; until then it has
sent nothing (`sent_iff_established`).
-/

set_option autoImplicit false

namespace AnyCable.Guarantees.Establishment
open AnyCable.Source

inductive Call where
  | write (msg : List UInt8)
  | established
  | close
  deriving DecidableEq, Repr

def step (c : SseConnection) : Call → SseConnection
  | .write msg => c.write msg
  | .established => c.establish
  | .close => c.close

/-- A connection after the calls, in the order in which they got its lock. -/
def run (calls : List Call) : SseConnection := calls.foldl step {}

def Call.message? : Call → Option (List UInt8)
  | .write msg => some msg
  | _ => none

/-- The messages written before the first `Close`. -/
def written (calls : List Call) : List (List UInt8) :=
  (calls.takeWhile (· ≠ .close)).filterMap Call.message?

/-- A message followed by a blank line. -/
def frame (msg : List UInt8) : List UInt8 := msg ++ [10, 10]

theorem takeWhile_of_closed {before : List Call} (closed : .close ∈ before) (after : List Call) :
    (before ++ after).takeWhile (· ≠ .close) = before.takeWhile (· ≠ .close) := by
  induction before with
  | nil => cases closed
  | cons a before ih =>
    by_cases here : a = .close
    · simp [here]
    · have later : .close ∈ before := by simpa [Ne.symm here] using closed
      simpa [here] using ih later

/-- What is written to a closed connection is not counted. -/
theorem written_of_closed {before : List Call} (closed : .close ∈ before) (after : List Call) :
    written (before ++ after) = written before := by
  unfold written
  rw [takeWhile_of_closed closed]

theorem written_of_open {before : List Call} (isOpen : .close ∉ before) (a : Call) :
    written (before ++ [a]) = written before ++ a.message?.toList := by
  have kept : ∀ b ∈ before, decide (b ≠ .close) = true := by
    intro b member
    simpa using fun equal : b = .close => isOpen (equal ▸ member)
  unfold written
  rw [List.takeWhile_append_of_pos kept, List.takeWhile_eq_self_iff.mpr kept,
    List.filterMap_append]
  cases a <;> simp [Call.message?]

theorem written_of_quiet (before : List Call) {a : Call} (quiet : a.message? = none) :
    written (before ++ [a]) = written before := by
  by_cases closed : .close ∈ before
  · exact written_of_closed closed _
  · rw [written_of_open closed, quiet, Option.toList_none, List.append_nil]

/-- What the calls so far have made of the connection. -/
structure Inv (calls : List Call) (c : SseConnection) : Prop where
  done : c.done = true ↔ .close ∈ calls
  established : c.established = true ↔ .established ∈ calls
  silent : c.established = false → c.writer.written = []
  bytes : c.bytes = (written calls).flatMap frame
  flushed : c.writer.flushed = c.writer.written.length

theorem inv_start : Inv [] {} where
  done := by simp
  established := by simp
  silent := by simp
  bytes := rfl
  flushed := rfl

section Steps

variable {calls : List Call} {c : SseConnection}

theorem Inv.write (inv : Inv calls c) (msg : List UInt8) :
    Inv (calls ++ [.write msg]) (c.write msg) := by
  have closing : Call.close ∈ calls ++ [Call.write msg] ↔ Call.close ∈ calls := by simp
  have establishing : Call.established ∈ calls ++ [Call.write msg] ↔
      Call.established ∈ calls := by simp
  by_cases closed : c.done = true
  · have count := written_of_closed (inv.done.mp closed) [.write msg]
    rw [SseConnection.write_of_done closed]
    exact { inv with
      done := inv.done.trans closing.symm
      established := inv.established.trans establishing.symm
      bytes := by rw [count, inv.bytes] }
  · have count := written_of_open (fun member => closed (inv.done.mpr member)) (.write msg)
    have bytes : (c.write msg).bytes = (written (calls ++ [.write msg])).flatMap frame := by
      rw [SseConnection.bytes_write (by simpa using closed), count, List.flatMap_append, inv.bytes]
      simp [Call.message?, frame, SseConnection.blankLine]
    refine ⟨?_, ?_, ?_, bytes, ?_⟩
    · rw [SseConnection.done_write]
      exact inv.done.trans closing.symm
    · rw [SseConnection.established_write]
      exact inv.established.trans establishing.symm
    all_goals
      unfold SseConnection.write
      rw [if_neg closed]
      split
    · exact inv.silent
    next late => exact fun early => absurd early late
    · exact inv.flushed
    · rfl

theorem Inv.establish (inv : Inv calls c) : Inv (calls ++ [.established]) c.establish := by
  have count : written (calls ++ [.established]) = written calls := written_of_quiet calls rfl
  have closing : Call.close ∈ calls ++ [Call.established] ↔ Call.close ∈ calls := by simp
  have flushed : c.establish.writer.flushed = c.establish.writer.written.length := by
    unfold SseConnection.establish
    split
    · rfl
    · exact inv.flushed
  exact
    { done := by rw [SseConnection.done_establish, inv.done, closing]
      established := by simp
      silent := fun early => by simp at early
      bytes := by rw [SseConnection.bytes_establish, count, inv.bytes]
      flushed := flushed }

theorem Inv.close (inv : Inv calls c) : Inv (calls ++ [.close]) c.close := by
  have count : written (calls ++ [.close]) = written calls := written_of_quiet calls rfl
  have establishing : Call.established ∈ calls ++ [Call.close] ↔ Call.established ∈ calls := by
    simp
  have other : Inv (calls ++ [.close]) { c with done := true } :=
    { inv with
      done := by simp
      established := inv.established.trans establishing.symm
      bytes := by rw [count, ← inv.bytes]; rfl }
  unfold SseConnection.close
  split
  next closed => simpa [← closed] using other
  next => exact other

theorem Inv.step (inv : Inv calls c) (a : Call) : Inv (calls ++ [a]) (step c a) := by
  cases a with
  | write msg => exact inv.write msg
  | established => exact inv.establish
  | close => exact inv.close

end Steps

theorem inv_run (calls : List Call) : Inv calls (run calls) := by
  induction calls using List.reverseRecOn with
  | nil => exact inv_start
  | append_singleton calls a ih =>
    have next : run (calls ++ [a]) = step (run calls) a := by simp [run]
    rw [next]
    exact ih.step a

/-- Nothing is lost, doubled or put out of order by the backlog, and nothing gets past `Close`. -/
theorem sent_iff_established (calls : List Call) :
    (.established ∈ calls → (run calls).writer.written = (written calls).flatMap frame) ∧
    (.established ∉ calls → (run calls).writer.written = []) ∧
    (run calls).writer.flushed = (run calls).writer.written.length ∧
    ∀ before after, calls = before ++ .close :: after → .established ∈ calls →
      (run calls).writer.written = (written before).flatMap frame := by
  have inv := inv_run calls
  have sent : .established ∈ calls → (run calls).writer.written = (written calls).flatMap frame := by
    intro established
    have empty := (run calls).handedOver (inv.established.mpr established)
    rw [← inv.bytes, SseConnection.bytes, empty, List.append_nil]
  refine ⟨sent, ?_, inv.flushed, ?_⟩
  · intro early
    apply inv.silent
    simpa using mt inv.established.mp early
  · rintro before after rfl established
    rw [sent established, show before ++ Call.close :: after = (before ++ [.close]) ++ after by simp,
      written_of_closed (by simp) after, written_of_quiet before rfl]

/-- The backlog of a connection that was closed early is sent, a later message is not. -/
example : (run [.write [104], .close, .write [105], .established]).writer =
    { written := [104, 10, 10], flushed := 3 } := by decide

end AnyCable.Guarantees.Establishment
