import Ws2tcpRouter.Lib.Text

/-!
# JSON objects

Objects of strings that hold no escape and of natural numbers. What the reader
takes is JSON, and a reader of all of it takes it for the same; an object
written without blanks is read back as it was.
-/

namespace Ws2tcpRouter.Lib.Json

inductive Value
  | string (s : Str)
  | number (n : Nat)
  deriving DecidableEq, Repr

/-- A character that stands for itself in a string. -/
def plain (c : Char) : Bool := 32 ≤ c.toNat && c ≠ '"' && c ≠ '\\'

def Value.Plain : Value → Prop
  | .string s => ∀ c ∈ s, plain c = true
  | .number _ => True

-- ---------------------------------------------------------------------------
-- Writing
-- ---------------------------------------------------------------------------

def writeString (s : Str) : Str := '"' :: s ++ ['"']

def writeValue : Value → Str
  | .string s => writeString s
  | .number n => (Nat.repr n).toList

def writeMember (member : Str × Value) : Str :=
  writeString member.1 ++ ':' :: writeValue member.2

/-- What follows a member. -/
def writeRest : List (Str × Value) → Str
  | [] => ['}']
  | member :: members => ',' :: writeMember member ++ writeRest members

def write : List (Str × Value) → Str
  | [] => "\x7b\x7d".toList
  | member :: members => '{' :: writeMember member ++ writeRest members

-- ---------------------------------------------------------------------------
-- Reading
-- ---------------------------------------------------------------------------

/-- The string behind its opening quote, and what follows it. -/
def readString : Str → Option (Str × Str)
  | [] => none
  | c :: rest =>
    if c = '"' then some ([], rest)
    else if plain c then (readString rest).map fun r => (c :: r.1, r.2)
    else none

def readNumber (s : Str) : Option (Nat × Str) :=
  let digits := s.takeWhile Char.isDigit
  let n := Nat.ofDigitChars 10 digits 0
  -- no leading zero, and at least one digit
  if digits = (Nat.repr n).toList then some (n, s.dropWhile Char.isDigit) else none

def readValue : Str → Option (Value × Str)
  | '"' :: rest => (readString rest).map fun r => (.string r.1, r.2)
  | s => (readNumber s).map fun r => (.number r.1, r.2)

def readMember : Str → Option ((Str × Value) × Str)
  | '"' :: rest => do
    let (name, rest) ← readString rest
    match rest with
    | ':' :: rest =>
      let (value, rest) ← readValue rest
      some ((name, value), rest)
    | _ => none
  | _ => none

/-- The members up to the closing brace, at most as many as given. -/
def readMembers : Nat → Str → Option (List (Str × Value))
  | 0, _ => none
  | fuel + 1, s => do
    let (member, rest) ← readMember s
    match rest with
    | ',' :: rest => (readMembers fuel rest).map (member :: ·)
    | ['}'] => some [member]
    | _ => none

def read : Str → Option (List (Str × Value))
  | ['{', '}'] => some []
  | '{' :: rest => readMembers rest.length rest
  | _ => none

-- ---------------------------------------------------------------------------
-- What was written is read back
-- ---------------------------------------------------------------------------

theorem readString_append {s : Str} (h : ∀ c ∈ s, plain c = true) (rest : Str) :
    readString (s ++ '"' :: rest) = some (s, rest) := by
  induction s with
  | nil => rfl
  | cons c s ih =>
    obtain ⟨hc, hs⟩ := List.forall_mem_cons.mp h
    have hne : c ≠ '"' := by
      rintro rfl
      cases hc
    simp [readString, hne, hc, ih hs]

theorem isDigit_repr (n : Nat) : ∀ c ∈ (Nat.repr n).toList, c.isDigit = true := by
  rw [Nat.toList_repr]
  exact fun c hc => Nat.isDigit_of_mem_toDigits (by decide) (by decide) hc

theorem readNumber_append (n : Nat) {rest : Str}
    (h : ∀ c, rest.head? = some c → c.isDigit = false) :
    readNumber ((Nat.repr n).toList ++ rest) = some (n, rest) := by
  have hdigits := isDigit_repr n
  have hstop : rest.takeWhile Char.isDigit = [] ∧ rest.dropWhile Char.isDigit = rest := by
    cases rest with
    | nil => exact ⟨rfl, rfl⟩
    | cons c rest => simp [h c rfl]
  have hvalue : Nat.ofDigitChars 10 (Nat.repr n).toList 0 = n := by
    rw [Nat.toList_repr, Nat.ofDigitChars_ten_toDigits]
  simp only [readNumber, List.takeWhile_append_of_pos hdigits, List.dropWhile_append_of_pos hdigits,
    hstop, List.append_nil, hvalue, if_true]

theorem readValue_append {value : Value} (h : value.Plain) {rest : Str}
    (hrest : ∀ c, rest.head? = some c → c.isDigit = false) :
    readValue (writeValue value ++ rest) = some (value, rest) := by
  cases value with
  | string s =>
    have hread := readString_append h rest
    simp [writeValue, writeString, readValue, hread]
  | number n =>
    have hread := readNumber_append n hrest
    have hdigits := isDigit_repr n
    rw [writeValue]
    cases hrepr : (Nat.repr n).toList with
    | nil => exact absurd hrepr (by rw [Nat.toList_repr]; exact Nat.toDigits_ne_nil)
    | cons c digits =>
      rw [hrepr] at hread hdigits
      have hquote : c ≠ '"' := by
        rintro rfl
        exact absurd (hdigits _ List.mem_cons_self) (by decide)
      rw [List.cons_append] at hread ⊢
      unfold readValue
      split
      next heq => exact absurd (List.cons.inj heq).1 hquote
      next => rw [hread]; rfl

theorem readMember_append {member : Str × Value} (hname : ∀ c ∈ member.1, plain c = true)
    (hvalue : member.2.Plain) {rest : Str} (hrest : ∀ c, rest.head? = some c → c.isDigit = false) :
    readMember (writeMember member ++ rest) = some (member, rest) := by
  have hread := readString_append hname (':' :: (writeValue member.2 ++ rest))
  have hread' := readValue_append hvalue hrest
  simp [writeMember, writeString, readMember, hread, hread']

theorem writeRest_head (members : List (Str × Value)) :
    ∀ c, (writeRest members).head? = some c → c.isDigit = false := by
  cases members <;> simp [writeRest]

/-- By induction on the members: each takes one of the fuel and leaves the rest. -/
theorem readMembers_append {members : List (Str × Value)}
    (h : ∀ member ∈ members, (∀ c ∈ member.1, plain c = true) ∧ member.2.Plain)
    (hname : ∀ c ∈ member.1, plain c = true) (hvalue : member.2.Plain) {fuel : Nat}
    (hfuel : members.length < fuel) :
    readMembers fuel (writeMember member ++ writeRest members) = some (member :: members) := by
  induction members generalizing member fuel with
  | nil =>
    obtain ⟨fuel, rfl⟩ := Nat.exists_eq_succ_of_ne_zero (Nat.ne_of_gt hfuel)
    rw [readMembers, readMember_append hname hvalue (writeRest_head [])]
    simp [writeRest]
  | cons next members ih =>
    obtain ⟨fuel, rfl⟩ := Nat.exists_eq_succ_of_ne_zero (Nat.ne_of_gt (Nat.zero_lt_of_lt hfuel))
    obtain ⟨⟨hname', hvalue'⟩, h⟩ := List.forall_mem_cons.mp h
    have hnext := ih h hname' hvalue' (Nat.lt_of_succ_lt_succ hfuel)
    have hmember := readMember_append hname hvalue (writeRest_head (next :: members))
    rw [readMembers, hmember]
    simp [writeRest, hnext]

theorem length_writeRest (members : List (Str × Value)) :
    members.length < (writeRest members).length := by
  induction members with
  | nil => decide
  | cons member members ih => simp [writeRest]; omega

theorem read_write {members : List (Str × Value)}
    (h : ∀ member ∈ members, (∀ c ∈ member.1, plain c = true) ∧ member.2.Plain) :
    read (write members) = some members := by
  cases members with
  | nil => rfl
  | cons member members =>
    obtain ⟨⟨hname, hvalue⟩, h⟩ := List.forall_mem_cons.mp h
    have hfuel : members.length < (writeMember member ++ writeRest members).length :=
      (length_writeRest members).trans_le (by simp)
    have hread := readMembers_append h hname hvalue hfuel
    simpa [write, read, writeMember, writeString] using hread

end Ws2tcpRouter.Lib.Json
