import Mathlib.Data.List.Basic

/-!
# Bounded pipes

A queue of a fixed capacity between a writer and a reader. A write takes what
fits and leaves the rest with the writer; a read takes from the front.
-/

namespace Ws2tcpRouter.Lib

structure Pipe (α : Type u) (capacity : Nat) where
  content : List α
  bounded : content.length ≤ capacity
  deriving DecidableEq, Repr

namespace Pipe

def empty : Pipe α capacity := ⟨[], Nat.zero_le capacity⟩

def room (pipe : Pipe α capacity) : Nat := capacity - pipe.content.length

def write (pipe : Pipe α capacity) (xs : List α) : Pipe α capacity × List α :=
  (⟨pipe.content ++ xs.take pipe.room, by
      have := pipe.bounded
      simp only [List.length_append, List.length_take, room]
      omega⟩,
    xs.drop pipe.room)

def read (pipe : Pipe α capacity) (n : Nat) : List α × Pipe α capacity :=
  (pipe.content.take n, ⟨pipe.content.drop n, by
    have := pipe.bounded
    simp only [List.length_drop]
    omega⟩)

variable {pipe : Pipe α capacity}

@[simp] theorem write_fst_content :
    (pipe.write xs).1.content = pipe.content ++ xs.take pipe.room := rfl

@[simp] theorem write_snd : (pipe.write xs).2 = xs.drop pipe.room := rfl

@[simp] theorem read_fst : (pipe.read n).1 = pipe.content.take n := rfl

@[simp] theorem read_snd_content : (pipe.read n).2.content = pipe.content.drop n := rfl

theorem read_content : (pipe.read n).1 ++ (pipe.read n).2.content = pipe.content := by
  simp

theorem room_write : (pipe.write xs).1.room = pipe.room - xs.length := by
  simp only [room, write_fst_content, List.length_append, List.length_take]
  omega

theorem room_le_room_read : pipe.room ≤ (pipe.read n).2.room := by
  simp only [room, read_snd_content, List.length_drop]
  omega

/-- What fits goes in whole, and what is left fits what is left of the room. -/
theorem write_rest (h : xs.length ≤ pipe.room) : (pipe.write xs).2 = [] := by
  rw [write_snd, List.drop_eq_nil_iff]
  exact h

theorem write_over (h : pipe.room < xs.length) :
    (pipe.write xs).2 ≠ [] ∧ (pipe.write xs).1.room = 0 := by
  refine ⟨?_, ?_⟩
  · rw [write_snd, Ne, List.drop_eq_nil_iff]
    omega
  · rw [room_write]
    omega

end Pipe

end Ws2tcpRouter.Lib
