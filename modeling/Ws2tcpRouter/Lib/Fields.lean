import Mathlib.Data.List.DropRight

/-!
# Messages of lines and fields

A start line, fields of a name and a value on a line each, an empty line, and
what follows. Written so, a message is read back as it was, where no part of a
line can be taken for the end of one and no part of a name for the end of the
name.
-/

namespace Ws2tcpRouter.Lib

/-- The symbols with a meaning: two end a line, one ends a name, and one may
stand on either side of a value. -/
structure Marks (α : Type*) where
  cr : α
  lf : α
  colon : α
  space : α
  cr_colon : cr ≠ colon
  cr_space : cr ≠ space

namespace Marks

variable {α : Type*} (m : Marks α)

def line (s : List α) : List α := s ++ [m.cr, m.lf]

def fieldLine (field : List α × List α) : List α := field.1 ++ m.colon :: m.space :: field.2

def write (start : List α) (fields : List (List α × List α)) : List α :=
  m.line start ++ fields.flatMap (fun field => m.line (m.fieldLine field)) ++ m.line []

section
variable [DecidableEq α]

/-- The lines up to the empty one, after the part of a line, and what follows. -/
def readLines (part : List α) : List α → Option (List (List α) × List α)
  | x :: y :: rest =>
    if x = m.cr ∧ y = m.lf then
      if part = [] then some ([], rest)
      else (readLines [] rest).map fun r => (part :: r.1, r.2)
    else readLines (part ++ [x]) (y :: rest)
  | _ => none

def readField (line : List α) : Option (List α × List α) :=
  match line.dropWhile (· ≠ m.colon) with
  | [] => none
  | _ :: value =>
    some (line.takeWhile (· ≠ m.colon),
      (value.dropWhile (· = m.space)).rdropWhile (· = m.space))

def read (symbols : List α) : Option (List α × List (List α × List α) × List α) := do
  let (lines, rest) ← m.readLines [] symbols
  match lines with
  | [] => none
  | start :: lines =>
    let fields ← lines.mapM m.readField
    some (start, fields, rest)

end

/-- A field that keeps its shape on a line. -/
structure Clean (field : List α × List α) : Prop where
  name_cr : m.cr ∉ field.1
  name_colon : m.colon ∉ field.1
  value_cr : m.cr ∉ field.2
  value_head : field.2.head? ≠ some m.space
  value_last : field.2.getLast? ≠ some m.space

-- ---------------------------------------------------------------------------
-- What was written is read back
-- ---------------------------------------------------------------------------

variable {m}

theorem Clean.line_cr (h : m.Clean field) : m.cr ∉ m.fieldLine field := by
  simp [fieldLine, h.name_cr, h.value_cr, m.cr_colon, m.cr_space]

theorem fieldLine_ne_nil (field : List α × List α) : m.fieldLine field ≠ [] := by
  simp [fieldLine]

variable [DecidableEq α]

/-- By induction on the line, whose symbols go to the part read. -/
theorem readLines_append {s : List α} (h : m.cr ∉ s) (part rest : List α) :
    m.readLines part (s ++ m.cr :: m.lf :: rest) =
      if part ++ s = [] then some ([], rest)
      else (m.readLines [] rest).map fun r => ((part ++ s) :: r.1, r.2) := by
  induction s generalizing part with
  | nil => simp [readLines]
  | cons a s ih =>
    obtain ⟨ha, hs⟩ := List.ne_and_not_mem_of_not_mem_cons h
    have hstep : m.readLines part (a :: (s ++ m.cr :: m.lf :: rest)) =
        m.readLines (part ++ [a]) (s ++ m.cr :: m.lf :: rest) := by
      cases s <;> simp [readLines, Ne.symm ha]
    rw [List.cons_append, hstep, ih hs]
    simp

theorem readLines_line {s : List α} (h : m.cr ∉ s) (hne : s ≠ []) (rest : List α) :
    m.readLines [] (m.line s ++ rest) =
      (m.readLines [] rest).map fun r => (s :: r.1, r.2) := by
  simpa [line, hne] using readLines_append h [] rest

theorem readLines_write (hstart : m.cr ∉ start) (hne : start ≠ [])
    (hfields : ∀ field ∈ fields, m.Clean field) (rest : List α) :
    m.readLines [] (m.write start fields ++ rest) =
      some (start :: fields.map m.fieldLine, rest) := by
  have hall : m.readLines [] (fields.flatMap (fun field => m.line (m.fieldLine field)) ++
      (m.line [] ++ rest)) = some (fields.map m.fieldLine, rest) := by
    induction fields with
    | nil => simp [line, readLines]
    | cons field fields ih =>
      obtain ⟨hfield, hfields⟩ := List.forall_mem_cons.mp hfields
      rw [List.flatMap_cons, List.append_assoc,
        readLines_line hfield.line_cr (fieldLine_ne_nil field), ih hfields]
      rfl
  rw [write, List.append_assoc, List.append_assoc, readLines_line hstart hne, hall]
  rfl

theorem readField_fieldLine (h : m.Clean field) : m.readField (m.fieldLine field) = some field := by
  have hname : ∀ a ∈ field.1, decide (a ≠ m.colon) = true := by
    intro a ha
    refine decide_eq_true ?_
    rintro rfl
    exact h.name_colon ha
  have hdrop : (m.fieldLine field).dropWhile (· ≠ m.colon) = m.colon :: m.space :: field.2 := by
    rw [fieldLine, List.dropWhile_append_of_pos hname]
    simp
  have htake : (m.fieldLine field).takeWhile (· ≠ m.colon) = field.1 := by
    rw [fieldLine, List.takeWhile_append_of_pos hname]
    simp
  have hhead : (m.space :: field.2).dropWhile (· = m.space) = field.2 := by
    obtain ⟨name, _ | ⟨a, value⟩⟩ := field
    · simp
    · have ha : a ≠ m.space := by simpa using h.value_head
      simp [ha]
  have hlast : field.2.rdropWhile (· = m.space) = field.2 := by
    refine List.rdropWhile_eq_self_iff.mpr ?_
    intro hne
    simpa [List.getLast?_eq_some_getLast hne] using h.value_last
  simp only [readField, hdrop, htake, hhead, hlast]

theorem read_write (hstart : m.cr ∉ start) (hne : start ≠ [])
    (hfields : ∀ field ∈ fields, m.Clean field) (rest : List α) :
    m.read (m.write start fields ++ rest) = some (start, fields, rest) := by
  have hback : (fields.map m.fieldLine).mapM m.readField = some fields := by
    induction fields with
    | nil => rfl
    | cons field fields ih =>
      obtain ⟨hfield, hfields⟩ := List.forall_mem_cons.mp hfields
      simp [readField_fieldLine hfield, ih hfields]
  simp [read, readLines_write hstart hne hfields, hback]

end Marks

end Ws2tcpRouter.Lib
