import Mathlib.Algebra.Group.Nat.Defs
import Mathlib.Data.List.DropRight
import Mathlib.Data.List.Basic

/-!
# Text and bytes

Text is a list of characters and binary data a list of bytes. UTF-8 is
Lean's own encoder and decoder, read as functions on these lists: decoding
succeeds exactly on the encodings. Splitting and trimming follow the
standard library of Rust, whose whitespace is Unicode's `White_Space`.
-/

abbrev Str := List Char
abbrev Bytes := List UInt8

namespace Text

-- ---------------------------------------------------------------------------
-- UTF-8
-- ---------------------------------------------------------------------------

def utf8 (s : Str) : Bytes := s.flatMap String.utf8EncodeChar

def fromUtf8 (bytes : Bytes) : Option Str := (bytes.toByteArray.utf8Decode?).map Array.toList

@[simp] theorem utf8_nil : utf8 [] = [] := rfl

@[simp] theorem utf8_cons (c : Char) (s : Str) :
    utf8 (c :: s) = String.utf8EncodeChar c ++ utf8 s := rfl

@[simp] theorem utf8_append (s t : Str) : utf8 (s ++ t) = utf8 s ++ utf8 t := by
  simp [utf8]

@[simp] theorem fromUtf8_utf8 (s : Str) : fromUtf8 (utf8 s) = some s := by
  have h : (utf8 s).toByteArray = s.utf8Encode := rfl
  rw [fromUtf8, h, List.utf8Decode?_utf8Encode]
  simp

/-- Decoding accepts exactly the encodings. -/
theorem fromUtf8_eq_some {bytes : Bytes} {s : Str} : fromUtf8 bytes = some s ↔ bytes = utf8 s := by
  constructor
  · intro h
    have hsome : (bytes.toByteArray.utf8Decode?).isSome := by
      cases hd : bytes.toByteArray.utf8Decode? <;> simp [fromUtf8, hd] at h ⊢
    obtain ⟨t, ht⟩ := ByteArray.isSome_utf8Decode?_iff.mp hsome
    have hb : bytes = utf8 t := by
      have := congrArg (fun b => b.data.toList) ht
      simpa [List.utf8Encode, utf8] using this
    subst hb
    rw [fromUtf8_utf8] at h
    rw [Option.some.inj h]
  · rintro rfl
    exact fromUtf8_utf8 s

theorem utf8_inj {s t : Str} (h : utf8 s = utf8 t) : s = t :=
  Option.some.inj <| by rw [← fromUtf8_utf8 s, h, fromUtf8_utf8]

-- ---------------------------------------------------------------------------
-- Big-endian integers
-- ---------------------------------------------------------------------------

def toBeBytes (x : UInt64) : Bytes :=
  [56, 48, 40, 32, 24, 16, 8, 0].map fun k => UInt8.ofNat (x.toNat / 2 ^ k)

def fromBeBytes (bytes : Bytes) : UInt64 :=
  .ofNat (bytes.foldl (fun n b => n * 256 + b.toNat) 0)

@[simp] theorem length_toBeBytes (x : UInt64) : (toBeBytes x).length = 8 := rfl

@[simp] theorem fromBeBytes_toBeBytes (x : UInt64) : fromBeBytes (toBeBytes x) = x := by
  have hx := x.toNat_lt
  apply UInt64.toNat_inj.mp
  simp only [toBeBytes, fromBeBytes, List.map_cons, List.map_nil, List.foldl_cons, List.foldl_nil,
    UInt8.toNat_ofNat', UInt64.toNat_ofNat']
  omega

theorem toBeBytes_fromBeBytes {bytes : Bytes} (h : bytes.length = 8) :
    toBeBytes (fromBeBytes bytes) = bytes := by
  match bytes, h with
  | [a, b, c, d, e, f, g, i], _ =>
    have ha := a.toNat_lt
    have hb := b.toNat_lt
    have hc := c.toNat_lt
    have hd := d.toNat_lt
    have he := e.toNat_lt
    have hf := f.toNat_lt
    have hg := g.toNat_lt
    have hi := i.toNat_lt
    simp only [toBeBytes, fromBeBytes, List.map_cons, List.map_nil, List.foldl_cons,
      List.foldl_nil, List.cons.injEq, ← UInt8.toNat_inj, UInt8.toNat_ofNat', UInt64.toNat_ofNat',
      and_true]
    omega

-- ---------------------------------------------------------------------------
-- Splitting
-- ---------------------------------------------------------------------------

/-- `str::split_once` with a character. -/
def splitOnce (c : Char) : Str → Option (Str × Str)
  | [] => none
  | x :: s => if x = c then some ([], s) else (splitOnce c s).map fun (a, b) => (x :: a, b)

theorem splitOnce_append {c : Char} {a : Str} (h : c ∉ a) (b : Str) :
    splitOnce c (a ++ c :: b) = some (a, b) := by
  induction a with
  | nil => simp [splitOnce]
  | cons x a ih =>
    simp only [List.mem_cons, not_or] at h
    simp [splitOnce, ih h.2, Ne.symm h.1]

theorem splitOnce_eq_some {c : Char} {s a b : Str} :
    splitOnce c s = some (a, b) ↔ c ∉ a ∧ s = a ++ c :: b := by
  constructor
  · intro h
    induction s generalizing a with
    | nil => simp [splitOnce] at h
    | cons x s ih =>
      simp only [splitOnce] at h
      split at h
      next hx =>
        cases h
        simp [hx]
      next hx =>
        obtain ⟨⟨a', b'⟩, h', heq⟩ := Option.map_eq_some_iff.mp h
        cases heq
        obtain ⟨hc, rfl⟩ := ih h'
        exact ⟨by simp [hc, Ne.symm hx], rfl⟩
  · rintro ⟨hc, rfl⟩
    exact splitOnce_append hc b

theorem isPrefixOf?_eq_some {pre s rest : Str} :
    pre.isPrefixOf? s = some rest ↔ s = pre ++ rest := by
  induction pre generalizing s with
  | nil => rw [List.isPrefixOf?, Option.some.injEq, List.nil_append]
  | cons c pre ih =>
    cases s with
    | nil => simp [List.isPrefixOf?]
    | cons x s =>
      rw [List.isPrefixOf?, Option.ite_none_right_eq_some, ih, beq_iff_eq, List.cons_append,
        List.cons.injEq, eq_comm]

/-- `str::split_once` with a separator that is not empty. -/
def splitOnceStr (sep : Str) : Str → Option (Str × Str)
  | [] => none
  | x :: s =>
    match sep.isPrefixOf? (x :: s) with
    | some rest => some ([], rest)
    | none => (splitOnceStr sep s).map fun (a, b) => (x :: a, b)

/-- `str::rsplit_once` with a character. -/
def rsplitOnce (c : Char) (s : Str) : Option (Str × Str) :=
  (splitOnce c s.reverse).map fun (a, b) => (b.reverse, a.reverse)

theorem rsplitOnce_append {c : Char} {b : Str} (h : c ∉ b) (a : Str) :
    rsplitOnce c (a ++ c :: b) = some (a, b) := by
  have hreverse : (a ++ c :: b).reverse = b.reverse ++ c :: a.reverse := by simp
  rw [rsplitOnce, hreverse, splitOnce_append (by simpa using h)]
  simp

theorem rsplitOnce_eq_some {c : Char} {s a b : Str} :
    rsplitOnce c s = some (a, b) ↔ c ∉ b ∧ s = a ++ c :: b := by
  constructor
  · intro h
    obtain ⟨⟨b', a'⟩, hsplit, heq⟩ := Option.map_eq_some_iff.mp h
    cases heq
    obtain ⟨hc, hs⟩ := splitOnce_eq_some.mp hsplit
    refine ⟨by simpa using hc, ?_⟩
    rw [← List.reverse_reverse s, hs]
    simp
  · rintro ⟨hc, rfl⟩
    exact rsplitOnce_append hc a

/-- A separator of two characters is found where it stands first. -/
theorem splitOnceStr_eq_some {c d : Char} (hcd : c ≠ d) {s a b : Str} :
    splitOnceStr [c, d] s = some (a, b) ↔ ¬[c, d] <:+: a ∧ s = a ++ c :: d :: b := by
  induction s generalizing a with
  | nil => simp [splitOnceStr]
  | cons x s ih =>
    unfold splitOnceStr
    split
    next rest hpre =>
      have hpre := isPrefixOf?_eq_some.mp hpre
      cases hpre
      constructor
      · rintro ⟨⟩
        exact ⟨by simp, rfl⟩
      · rintro ⟨hfree, heq⟩
        match a with
        | [] =>
          cases heq
          rfl
        | [y] =>
          cases heq
          exact (hcd rfl).elim
        | y :: z :: a =>
          cases heq
          exact (hfree ⟨[], a, rfl⟩).elim
    next hpre =>
      have hnot : ∀ t, x :: s ≠ c :: d :: t := by
        intro t heq
        rw [isPrefixOf?_eq_some.mpr heq] at hpre
        cases hpre
      rw [Option.map_eq_some_iff]
      constructor
      · rintro ⟨⟨a', b'⟩, hsplit, heq⟩
        cases heq
        obtain ⟨hfree, rfl⟩ := ih.mp hsplit
        refine ⟨?_, rfl⟩
        rw [List.infix_cons_iff, not_or]
        refine ⟨?_, hfree⟩
        rintro ⟨t, ht⟩
        exact hnot (t ++ c :: d :: b) (by rw [← List.cons_append, ← ht]; rfl)
      · rintro ⟨hfree, heq⟩
        cases a with
        | nil => exact (hnot b heq).elim
        | cons y a =>
          cases heq
          exact ⟨(a, b), ih.mpr ⟨fun h => hfree (List.infix_cons h), rfl⟩, rfl⟩

/-- `str::strip_suffix` with a character. -/
def stripSuffix (c : Char) (s : Str) : Option Str :=
  if s.getLast? = some c then some s.dropLast else none

def lines (s : Str) : List Str :=
  let pieces := s.splitOn '\n'
  let last := pieces.getLastD []
  pieces.dropLast.map (fun line => (stripSuffix '\r' line).getD line) ++
    if last = [] then [] else [last]

-- ---------------------------------------------------------------------------
-- Characters
-- ---------------------------------------------------------------------------

def isWhitespace (c : Char) : Bool :=
  let n := c.toNat
  (9 ≤ n && n ≤ 13) || n = 0x20 || n = 0x85 || n = 0xa0 || n = 0x1680 ||
    (0x2000 ≤ n && n ≤ 0x200a) || n = 0x2028 || n = 0x2029 || n = 0x202f || n = 0x205f || n = 0x3000

def trim (s : Str) : Str := (s.dropWhile isWhitespace).rdropWhile isWhitespace

theorem isWhitespace_visible (h : 32 < c.toNat ∧ c.toNat < 127) : isWhitespace c = false := by
  simp only [isWhitespace, Bool.or_eq_false_iff, Bool.and_eq_false_iff, decide_eq_false_iff_not]
  omega

theorem trim_eq_self {s : Str} (h : ∀ c ∈ s, isWhitespace c = false) : trim s = s := by
  unfold trim
  rw [List.dropWhile_eq_self_iff.mpr, List.rdropWhile_eq_self_iff.mpr]
  · intro hne
    simp [h _ (List.getLast_mem hne)]
  · intro hpos
    simp [h _ (List.getElem_mem hpos)]

def eqIgnoreAsciiCase (s t : Str) : Bool := s.map Char.toLower = t.map Char.toLower

/-- The bytes of visible characters, as text. -/
def visibleAscii (bytes : Bytes) : Option Str :=
  if bytes.all fun b => (32 ≤ b && b < 127) || b = 9 then
    some (bytes.map fun b => Char.ofNat b.toNat)
  else none

theorem utf8EncodeChar_ascii {c : Char} (h : c.toNat < 128) :
    String.utf8EncodeChar c = [UInt8.ofNat c.toNat] := by
  have hc : c.val.toNat ≤ 127 := Nat.le_of_lt_succ h
  simp only [String.utf8EncodeChar, hc, if_true]
  rfl

theorem toNat_ofNat_byte (b : UInt8) : (Char.ofNat b.toNat).toNat = b.toNat := by
  have hb := b.toNat_lt
  have hvalid : b.toNat.isValidChar := .inl (by omega)
  have haux : Char.ofNat b.toNat = Char.ofNatAux b.toNat hvalid := dif_pos hvalid
  rw [haux]
  rfl

theorem visibleAscii_utf8 {s : Str} (h : ∀ c ∈ s, 32 ≤ c.toNat ∧ c.toNat < 127) :
    visibleAscii (utf8 s) = some s := by
  induction s with
  | nil => rfl
  | cons c s ih =>
    obtain ⟨hc, hs⟩ := List.forall_mem_cons.mp h
    have hbyte : (UInt8.ofNat c.toNat).toNat = c.toNat := by
      rw [UInt8.toNat_ofNat', Nat.mod_eq_of_lt (by omega)]
    have hvisible : (32 ≤ UInt8.ofNat c.toNat) ∧ (UInt8.ofNat c.toNat < 127) := by
      rw [UInt8.le_iff_toNat_le, UInt8.lt_iff_toNat_lt, hbyte]
      exact hc
    have hrest := ih hs
    simp only [visibleAscii] at hrest ⊢
    split at hrest
    next hall =>
      rw [utf8_cons, utf8EncodeChar_ascii (by omega)]
      rw [if_pos (by simp only [List.cons_append, List.nil_append, List.all_cons, hvisible, hall,
        decide_true, Bool.and_self, Bool.true_or])]
      simp only [List.cons_append, List.nil_append, List.map_cons, hbyte, Char.ofNat_toNat,
        Option.some.inj hrest]
    next => cases hrest

theorem utf8_of_visibleAscii {bytes : Bytes} {s : Str} (h : visibleAscii bytes = some s) :
    bytes = utf8 s := by
  simp only [visibleAscii] at h
  split at h
  next hall =>
    cases h
    induction bytes with
    | nil => rfl
    | cons b bytes ih =>
      rw [List.all_cons, Bool.and_eq_true] at hall
      have hb : b.toNat < 128 := by
        have := hall.1
        simp only [Bool.or_eq_true, Bool.and_eq_true, decide_eq_true_eq] at this
        rcases this with ⟨-, hb⟩ | rfl
        · exact (UInt8.lt_iff_toNat_lt.mp hb).trans (by decide)
        · decide
      rw [List.map_cons, utf8_cons, utf8EncodeChar_ascii (by rwa [toNat_ofNat_byte]),
        toNat_ofNat_byte, UInt8.ofNat_toNat, ← ih hall.2]
      rfl
  next => cases h

-- ---------------------------------------------------------------------------
-- Splitting encoded text
-- ---------------------------------------------------------------------------

/-- An ASCII byte in an encoding is a character of its own. -/
theorem eq_of_mem_utf8EncodeChar {c : Char} {b : UInt8} (hb : b.toNat < 128)
    (h : b ∈ String.utf8EncodeChar c) : c.toNat = b.toNat := by
  have hmod : ∀ n, b = UInt8.ofNat n → b.toNat = n % 256 := by
    rintro n rfl
    exact UInt8.toNat_ofNat'
  unfold String.utf8EncodeChar at h
  dsimp only at h
  split at h
  next hle =>
    have hv := hmod _ (List.mem_singleton.mp h)
    rw [hv, Nat.mod_eq_of_lt (by omega)]
    rfl
  next =>
    exfalso
    split at h
    next =>
      simp only [List.mem_cons, List.not_mem_nil, or_false] at h
      rcases h with h | h <;> have hv := hmod _ h <;> omega
    next =>
      split at h <;> simp only [List.mem_cons, List.not_mem_nil, or_false] at h
      · rcases h with h | h | h <;> have hv := hmod _ h <;> omega
      · rcases h with h | h | h | h <;> have hv := hmod _ h <;> omega

theorem mem_utf8_ascii {sep : Char} (hsep : sep.toNat < 128)
    (h : UInt8.ofNat sep.toNat ∈ utf8 s) : sep ∈ s := by
  have hbyte : (UInt8.ofNat sep.toNat).toNat = sep.toNat := by
    rw [UInt8.toNat_ofNat', Nat.mod_eq_of_lt (by omega)]
  obtain ⟨c, hc, hm⟩ := List.mem_flatMap.mp h
  have heq := eq_of_mem_utf8EncodeChar (by rwa [hbyte]) hm
  rw [hbyte] at heq
  rwa [← Char.toNat_inj.mp heq]

theorem utf8_intercalate (sep : Str) (parts : List Str) :
    utf8 (sep.intercalate parts) = (utf8 sep).intercalate (parts.map utf8) := by
  induction parts with
  | nil => rfl
  | cons part parts ih =>
    cases parts with
    | nil => simp
    | cons next parts =>
      rw [List.map_cons, List.map_cons, List.intercalate_cons_of_ne_nil (List.cons_ne_nil _ _),
        List.intercalate_cons_of_ne_nil (List.cons_ne_nil _ _), utf8_append, utf8_append, ih]
      rfl

theorem splitOn_append_notMem [DecidableEq α] {a : α} {xs : List α} (h : a ∉ xs) (ys : List α) :
    (xs ++ ys).splitOn a = (ys.splitOn a).modifyHead (xs ++ ·) := by
  induction xs with
  | nil =>
    rw [List.nil_append]
    cases ys.splitOn a <;> rfl
  | cons x xs ih =>
    obtain ⟨hx, hxs⟩ := not_or.mp (mt List.mem_cons.mpr h)
    rw [List.cons_append, List.splitOn_cons_eq_if_modifyHead,
      if_neg (by simpa using Ne.symm hx), ih hxs]
    cases ys.splitOn a <;> rfl

/-- Splitting at an ASCII character is splitting at its byte. -/
theorem utf8_splitOn {sep : Char} (hsep : sep.toNat < 128) (s : Str) :
    (utf8 s).splitOn (UInt8.ofNat sep.toNat) = (s.splitOn sep).map utf8 := by
  induction s with
  | nil => simp
  | cons c s ih =>
    rw [utf8_cons, List.splitOn_cons_eq_if_modifyHead]
    by_cases hc : c = sep
    · subst hc
      rw [utf8EncodeChar_ascii hsep, List.singleton_append, List.splitOn_cons_eq_if_modifyHead,
        if_pos (beq_self_eq_true _), if_pos (beq_self_eq_true _), ih]
      rfl
    · have hnot : UInt8.ofNat sep.toNat ∉ String.utf8EncodeChar c := by
        intro hm
        have hmem : sep ∈ [c] := mem_utf8_ascii hsep (by simpa [utf8] using hm)
        exact hc (List.mem_singleton.mp hmem).symm
      rw [splitOn_append_notMem hnot, ih, if_neg (by simpa using hc)]
      cases s.splitOn sep <;> rfl

-- ---------------------------------------------------------------------------
-- Decimal numbers
-- ---------------------------------------------------------------------------

/-- `parse` for an unsigned type with the given greatest value. -/
def parseUnsigned (greatest : Nat) (s : Str) : Option Nat :=
  let digits := ("+".toList.isPrefixOf? s).getD s
  if digits = [] then none
  else digits.foldlM (fun n c =>
    if c.isDigit then
      let n := n * 10 + (c.toNat - '0'.toNat)
      if n ≤ greatest then some n else none
    else none) 0

/-- An optional plus sign and at least one decimal digit, of that value. -/
def Decimal (s : Str) (n : Nat) : Prop :=
  ∃ digits, (s = digits ∨ s = '+' :: digits) ∧ digits ≠ [] ∧
    (∀ c ∈ digits, c.isDigit = true) ∧ Nat.ofDigitChars 10 digits 0 = n

theorem le_ofDigitChars (digits : Str) (n : Nat) : n ≤ Nat.ofDigitChars 10 digits n := by
  rw [Nat.ofDigitChars_eq_ofDigitChars_zero]
  exact (Nat.le_mul_of_pos_left n (Nat.pow_pos (by decide))).trans (Nat.le_add_right _ _)

/-- The value only grows, so that the bound on every step is one on the value. -/
theorem foldlM_digits {greatest n m : Nat} {digits : Str} (hn : n ≤ greatest) :
    digits.foldlM (fun n c =>
      if c.isDigit then
        let n := n * 10 + (c.toNat - '0'.toNat)
        if n ≤ greatest then some n else none
      else none) n = some m ↔
    (∀ c ∈ digits, c.isDigit = true) ∧ Nat.ofDigitChars 10 digits n = m ∧ m ≤ greatest := by
  induction digits generalizing n with
  | nil =>
    simp
    rintro rfl
    exact hn
  | cons c digits ih =>
    rw [List.foldlM_cons, List.forall_mem_cons, Nat.ofDigitChars_cons, Nat.mul_comm 10 n]
    by_cases hc : c.isDigit = true
    · rw [if_pos hc]
      by_cases hle : n * 10 + (c.toNat - '0'.toNat) ≤ greatest
      · rw [if_pos hle, Option.bind_eq_bind, Option.bind_some, ih hle]
        simp only [hc, true_and]
      · have hgrow := le_ofDigitChars digits (n * 10 + (c.toNat - '0'.toNat))
        rw [if_neg hle, Option.bind_eq_bind, Option.bind_none]
        refine iff_of_false nofun ?_
        rintro ⟨_, hm, hle'⟩
        exact hle (hgrow.trans (hm ▸ hle'))
    · rw [if_neg hc, Option.bind_eq_bind, Option.bind_none]
      exact iff_of_false nofun fun h => hc h.1.1

theorem stripPlus_eq {digits : Str} (h : ∀ c ∈ digits, c.isDigit = true) :
    ("+".toList.isPrefixOf? s).getD s = digits ↔ s = digits ∨ s = '+' :: digits := by
  cases hpre : "+".toList.isPrefixOf? s with
  | none =>
    refine ⟨.inl, ?_⟩
    rintro (rfl | rfl)
    · rfl
    · cases (isPrefixOf?_eq_some.mpr (rfl : '+' :: digits = "+".toList ++ digits)).symm.trans hpre
  | some rest =>
    have hs := isPrefixOf?_eq_some.mp hpre
    subst hs
    constructor
    · rintro rfl
      exact .inr rfl
    · rintro (rfl | heq)
      · exact absurd (h '+' List.mem_cons_self) (by decide)
      · cases heq
        rfl

theorem parseUnsigned_eq_some : parseUnsigned greatest s = some n ↔ Decimal s n ∧ n ≤ greatest := by
  unfold parseUnsigned
  constructor
  · intro h
    generalize hdigits : ("+".toList.isPrefixOf? s).getD s = digits at h
    dsimp only at h
    split at h
    next => cases h
    next hne =>
      obtain ⟨hall, hvalue, hle⟩ := (foldlM_digits (Nat.zero_le _)).mp h
      exact ⟨⟨digits, (stripPlus_eq hall).mp hdigits, hne, hall, hvalue⟩, hle⟩
  · rintro ⟨⟨digits, hs, hne, hall, hvalue⟩, hle⟩
    rw [(stripPlus_eq hall).mpr hs]
    dsimp only
    rw [if_neg hne]
    exact (foldlM_digits (Nat.zero_le _)).mpr ⟨hall, hvalue, hle⟩

theorem decimal_repr (n : Nat) : Decimal (Nat.repr n).toList n := by
  rw [Nat.toList_repr]
  exact ⟨_, .inl rfl, Nat.toDigits_ne_nil,
    fun c hc => Nat.isDigit_of_mem_toDigits (by decide) (by decide) hc,
    Nat.ofDigitChars_ten_toDigits⟩

end Text
