import Mathlib.Data.List.Basic

/-!
# The connection of an SSE session

Source: `sse/connection.go`. Every method runs under the lock of the connection, so each is one
step. Messages that come before the response is known to be a stream are kept in a backlog. The
writer of the response takes what it is given; what it has got reaches the client when it is
flushed.

The context that `Close` cancels is read by the handler of the request and left out.
-/

set_option autoImplicit false

namespace AnyCable.Source

/-- An `http.ResponseWriter`: what was written to it, and how much of that when it was flushed. -/
structure ResponseWriter where
  written : List UInt8 := []
  flushed : Nat := 0
  deriving DecidableEq, Repr

namespace ResponseWriter

def write (w : ResponseWriter) (bytes : List UInt8) : ResponseWriter :=
  { w with written := w.written ++ bytes }

def flush (w : ResponseWriter) : ResponseWriter := { w with flushed := w.written.length }

end ResponseWriter

/-- The backlog is used until the connection is established. -/
structure SseConnection where
  writer : ResponseWriter := {}
  done : Bool := false
  established : Bool := false
  backlog : List UInt8 := []
  handedOver : established = true → backlog = [] := by decide
  deriving DecidableEq, Repr

namespace SseConnection

/-- `[]byte("\n\n")`. -/
def blankLine : List UInt8 := [10, 10]

def write (c : SseConnection) (msg : List UInt8) : SseConnection :=
  if c.done then c
  else if early : c.established = false then
    { c with backlog := c.backlog ++ msg ++ blankLine, handedOver := by simp [early] }
  else { c with writer := ((c.writer.write msg).write blankLine).flush }

def close (c : SseConnection) : SseConnection :=
  if c.done then c else { c with done := true }

/-- `Established`. A closed connection still hands over its backlog. -/
def establish (c : SseConnection) : SseConnection :=
  if waiting : 0 < c.backlog.length then
    { c with established := true, writer := (c.writer.write c.backlog).flush, backlog := []
             handedOver := fun _ => rfl }
  else
    { c with established := true
             handedOver := fun _ => List.eq_nil_of_length_eq_zero (Nat.eq_zero_of_not_pos waiting) }

/-- Everything written to the connection, sent or waiting. -/
def bytes (c : SseConnection) : List UInt8 := c.writer.written ++ c.backlog

theorem bytes_write {c : SseConnection} (isOpen : c.done = false) (msg : List UInt8) :
    (c.write msg).bytes = c.bytes ++ (msg ++ blankLine) := by
  unfold write bytes
  rw [if_neg (by simp [isOpen])]
  split
  · simp
  next late =>
    have empty : c.backlog = [] := c.handedOver (by simpa using late)
    simp [empty, ResponseWriter.write, ResponseWriter.flush]

theorem write_of_done {c : SseConnection} (closed : c.done = true) (msg : List UInt8) :
    c.write msg = c :=
  if_pos closed

@[simp] theorem done_write (c : SseConnection) (msg : List UInt8) :
    (c.write msg).done = c.done := by
  unfold write
  split
  · rfl
  · split <;> rfl

@[simp] theorem established_write (c : SseConnection) (msg : List UInt8) :
    (c.write msg).established = c.established := by
  unfold write
  split
  · rfl
  · split <;> rfl

@[simp] theorem bytes_establish (c : SseConnection) : c.establish.bytes = c.bytes := by
  unfold establish bytes
  split
  · simp [ResponseWriter.write, ResponseWriter.flush]
  · rfl

@[simp] theorem done_establish (c : SseConnection) : c.establish.done = c.done := by
  unfold establish
  split <;> rfl

@[simp] theorem established_establish (c : SseConnection) : c.establish.established = true := by
  unfold establish
  split <;> rfl

@[simp] theorem bytes_close (c : SseConnection) : c.close.bytes = c.bytes := by
  unfold close
  split <;> rfl

@[simp] theorem done_close (c : SseConnection) : c.close.done = true := by
  unfold close
  split
  next closed => exact closed
  next => rfl

end SseConnection

end AnyCable.Source
