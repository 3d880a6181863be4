import Mathlib.Algebra.Group.Int.Defs
import Mathlib.Algebra.Group.Nat.Defs
import Mathlib.Data.List.DropRight
import Mathlib.Data.List.Infix

/-!
# White space, numbers and halves of a text

`trim` takes the white space off both ends of a text, where white space is
what Unicode calls `White_Space`.  A text of white space alone is blank.

`parseUsize` reads the decimal digits of a number, and `splitOnce` cuts a text
at the first character of a kind.  Both read back what was put together
(`parseUsize_repr`, `splitOnce_append`).

A text that was put together in two ways has the longer first part at the start
(`append_eq_append_of_le`), and one whose end is white space is not trimmed
(`trim_append_space_ne`).
-/

namespace Lib.Text

/-- The code points with the Unicode property `White_Space`. -/
def isWhitespace (c : Char) : Bool :=
  (0x09 ≤ c.val && c.val ≤ 0x0d) || c.val = 0x20 || c.val = 0x85 || c.val = 0xa0 ||
    c.val = 0x1680 || (0x2000 ≤ c.val && c.val ≤ 0x200a) || c.val = 0x2028 || c.val = 0x2029 ||
    c.val = 0x202f || c.val = 0x205f || c.val = 0x3000

def trim (s : String) : String :=
  String.ofList ((s.toList.dropWhile isWhitespace).rdropWhile isWhitespace)

def isBlank (s : String) : Bool := trim s = ""

/-- The text, unless nothing is left of it without the white space. -/
def trimmed? (s : String) : Option String := if isBlank s then none else some (trim s)

/-- The first text occurs in the second one. -/
def contains (s pattern : String) : Bool := decide (pattern.toList <:+: s.toList)

/-- `A` to `Z` as small letters. -/
def toAsciiLowercase (s : String) : String := String.ofList (s.toList.map Char.toLower)

/-- The text without the pattern at its start. -/
def stripPrefix (pattern s : String) : String :=
  if pattern.toList <+: s.toList then String.ofList (s.toList.drop pattern.length) else s

/-- What follows the pattern at the start of the text. -/
def stripPrefix? (pattern s : String) : Option String :=
  if pattern.toList <+: s.toList then some (String.ofList (s.toList.drop pattern.length)) else none

theorem stripPrefix?_eq_some_iff {pattern s rest : String} :
    stripPrefix? pattern s = some rest ↔ s = pattern ++ rest := by
  have hdrop : ∀ t : List Char, String.ofList ((pattern.toList ++ t).drop pattern.length) =
      String.ofList t := by
    intro t
    rw [← String.length_toList, List.drop_left]
  unfold stripPrefix?
  by_cases hprefix : pattern.toList <+: s.toList
  · obtain ⟨t, ht⟩ := hprefix
    obtain rfl : s = pattern ++ String.ofList t := by
      rw [← String.toList_inj, String.toList_append, String.toList_ofList, ht]
    rw [if_pos ⟨t, ht⟩, ← ht, hdrop, Option.some.injEq, String.append_right_inj]
  · rw [if_neg hprefix]
    refine iff_of_false (by simp) ?_
    intro heq
    subst heq
    exact hprefix ⟨rest.toList, String.toList_append.symm⟩

/-- The parts of the text between the separators. -/
def split (sep : Char) (s : String) : List String := (s.toList.splitOn sep).map String.ofList

/-- The number that digits stand for; there is at least one. -/
def digits? (cs : List Char) : Option Nat :=
  if cs ≠ [] && cs.all Char.isDigit then
    some (cs.foldl (fun n c => n * 10 + (c.toNat - '0'.toNat)) 0)
  else none

/-- `parse::<i64>` -/
def parseI64 (s : String) : Option Int64 :=
  let number : Option Int :=
    match s.toList with
    | '-' :: cs => (digits? cs).map fun n => -(n : Int)
    | '+' :: cs => (digits? cs).map fun n => (n : Int)
    | cs => (digits? cs).map fun n => (n : Int)
  (number.filter fun n => -2 ^ 63 ≤ n && n < 2 ^ 63).map Int64.ofInt

/-- `parse::<usize>` -/
def parseUsize (s : String) : Option Nat :=
  let number : Option Nat :=
    match s.toList with
    | '+' :: cs => digits? cs
    | cs => digits? cs
  number.filter fun n => n < 2 ^ 64

/-- The texts before and after the first separator. -/
def splitOnce (sep : Char) (s : String) : Option (String × String) :=
  if sep ∈ s.toList then
    some (String.ofList (s.toList.takeWhile (· ≠ sep)),
      String.ofList (s.toList.dropWhile (· ≠ sep)).tail)
  else none

def eqIgnoreAsciiCase (s t : String) : Bool := toAsciiLowercase s = toAsciiLowercase t

/-- What starts with no white space starts with none when its end is dropped. -/
theorem dropWhile_rdropWhile {α : Type} (p : α → Bool) (l : List α)
    (h : l.dropWhile p = l) : (l.rdropWhile p).dropWhile p = l.rdropWhile p := by
  cases hr : l.rdropWhile p with
  | nil => rfl
  | cons c cs =>
    obtain ⟨t, ht⟩ := List.rdropWhile_prefix p (l := l)
    rw [hr, List.cons_append] at ht
    have hc : p c = false := by
      rw [← ht, List.dropWhile_cons] at h
      cases hpc : p c with
      | false => rfl
      | true =>
        rw [hpc, if_pos rfl] at h
        have hlen := congrArg List.length h
        have hle := (List.dropWhile_suffix p (l := cs ++ t)).length_le
        rw [List.length_cons] at hlen
        omega
    rw [List.dropWhile_cons, hc, if_neg Bool.false_ne_true]

theorem mem_of_mem_trim {s : String} {c : Char} (h : c ∈ (trim s).toList) : c ∈ s.toList := by
  rw [trim, String.toList_ofList] at h
  exact (List.dropWhile_sublist _).subset ((List.rdropWhile_prefix _ _).subset h)

@[simp] theorem trim_trim (s : String) : trim (trim s) = trim s := by
  have hstart : (s.toList.dropWhile isWhitespace).dropWhile isWhitespace =
      s.toList.dropWhile isWhitespace := List.dropWhile_idempotent _ _
  unfold trim
  rw [String.toList_ofList, dropWhile_rdropWhile isWhitespace _ hstart, List.rdropWhile_idempotent]

/-- A text whose first and last letters are no white space is left as it is. -/
theorem trim_eq_self_of_ends {s : String} (hfirst : ∀ c ∈ s.toList.head?, isWhitespace c = false)
    (hlast : ∀ c ∈ s.toList.getLast?, isWhitespace c = false) : trim s = s := by
  have hstart : s.toList.dropWhile isWhitespace = s.toList := by
    cases hs : s.toList with
    | nil => rfl
    | cons c cs =>
      have hc := hfirst c (by rw [hs]; rfl)
      rw [List.dropWhile_cons, hc, if_neg Bool.false_ne_true]
  have hend : s.toList.rdropWhile isWhitespace = s.toList := by
    rw [List.rdropWhile_eq_self_iff]
    intro hne
    rw [hlast _ (List.getLast?_eq_getLast_of_ne_nil hne)]
    exact Bool.false_ne_true
  unfold trim
  rw [hstart, hend, String.ofList_toList]

/-- Without white space there is nothing to trim. -/
theorem trim_eq_self {s : String} (h : ∀ c ∈ s.toList, isWhitespace c = false) : trim s = s :=
  trim_eq_self_of_ends (fun c hc => h c (List.mem_of_mem_head? hc))
    fun c hc => h c (List.mem_of_mem_getLast? hc)

/-- The first and the last letter of a trimmed text are no white space. -/
theorem ends_of_trim_eq_self {s : String} (h : trim s = s) :
    (∀ c ∈ s.toList.head?, isWhitespace c = false) ∧
      ∀ c ∈ s.toList.getLast?, isWhitespace c = false := by
  have hlists : (s.toList.dropWhile isWhitespace).rdropWhile isWhitespace = s.toList := by
    rw [← String.toList_ofList (l := (s.toList.dropWhile isWhitespace).rdropWhile isWhitespace)]
    exact congrArg String.toList h
  have hend : s.toList.rdropWhile isWhitespace = s.toList := by
    rw [← hlists]
    exact List.rdropWhile_idempotent _ _
  have hstart : s.toList.dropWhile isWhitespace = s.toList := by
    have hkept := dropWhile_rdropWhile isWhitespace (s.toList.dropWhile isWhitespace)
      (List.dropWhile_idempotent _ _)
    rwa [hlists] at hkept
  constructor
  · intro c hc
    cases hs : s.toList with
    | nil => rw [hs] at hc; cases hc
    | cons d ds =>
      rw [hs] at hc hstart
      cases hc
      by_contra hnot
      rw [List.dropWhile_cons, if_pos (by simpa using hnot)] at hstart
      have hlen := congrArg List.length hstart
      have hle := (List.dropWhile_suffix isWhitespace (l := ds)).length_le
      rw [List.length_cons] at hlen
      omega
  · intro c hc
    rw [List.rdropWhile_eq_self_iff] at hend
    have hne : s.toList ≠ [] := by
      intro hnil
      rw [hnil] at hc
      cases hc
    rw [List.getLast?_eq_getLast_of_ne_nil hne] at hc
    cases hc
    simpa using hend hne

@[simp] theorem isBlank_trim (s : String) : isBlank (trim s) = isBlank s := by
  unfold isBlank
  rw [trim_trim]

theorem trimmed?_eq_some_iff {s t : String} : trimmed? s = some t ↔ isBlank s = false ∧ trim s = t := by
  unfold trimmed?
  cases isBlank s with
  | false => simp
  | true => simp

/-! ## A text in another -/

theorem contains_iff {s pattern : String} :
    contains s pattern = true ↔ pattern.toList <:+: s.toList := decide_eq_true_iff

/-- A pattern does not begin where its first letter does not occur. -/
theorem infix_append_of_not_mem {α : Type} {c : α} {p l r : List α} (h : c ∉ l) :
    c :: p <:+: l ++ r ↔ c :: p <:+: r := by
  induction l with
  | nil => exact Iff.rfl
  | cons a l ih =>
    obtain ⟨hne, hl⟩ := not_or.mp fun hor => h (List.mem_cons.mpr hor)
    rw [List.cons_append, List.infix_cons_iff, ih hl, List.cons_prefix_cons]
    simp [hne]

/-- A pattern does not go on where one of the letters that it does not have
comes. -/
theorem prefix_append_cons_of_not_mem {α : Type} {c : α} {p l r : List α} (h : c ∉ p) :
    p <+: l ++ c :: r ↔ p <+: l := by
  induction p generalizing l with
  | nil => simp
  | cons a p ih =>
    obtain ⟨hne, hp⟩ := not_or.mp fun hor => h (List.mem_cons.mpr hor)
    cases l with
    | nil => simp [List.cons_prefix_cons, Ne.symm hne]
    | cons b l => rw [List.cons_append, List.cons_prefix_cons, List.cons_prefix_cons, ih hp]

/-- A pattern lies before or after a letter that it does not have. -/
theorem infix_append_cons_of_not_mem {α : Type} {c : α} {p l r : List α} (hp : p ≠ [])
    (h : c ∉ p) : p <:+: l ++ c :: r ↔ p <:+: l ∨ p <:+: r := by
  induction l with
  | nil =>
    have hstart : ¬ p <+: c :: r := by
      intro hprefix
      rw [← List.nil_append (c :: r), prefix_append_cons_of_not_mem h] at hprefix
      exact hp (List.prefix_nil.mp hprefix)
    simp [List.infix_cons_iff, hstart, hp]
  | cons a l ih =>
    rw [List.cons_append, List.infix_cons_iff, ← List.cons_append, ih,
      prefix_append_cons_of_not_mem h, List.infix_cons_iff, or_assoc]

/-- White space after a text makes no difference. -/
theorem trim_append_singleton (s : String) {c : Char} (h : isWhitespace c = true) :
    trim (s ++ String.singleton c) = trim s := by
  have hlast : ∀ l : List Char, (l ++ [c]).rdropWhile isWhitespace = l.rdropWhile isWhitespace :=
    fun l => List.rdropWhile_concat_pos _ _ _ h
  unfold trim
  rw [String.toList_append, String.toList_singleton, List.dropWhile_append]
  split
  case isTrue hnil =>
    rw [List.isEmpty_iff.mp hnil]
    simp [h]
  case isFalse => rw [hlast]

/-- White space before a text makes no difference. -/
theorem trim_singleton_append (s : String) {c : Char} (h : isWhitespace c = true) :
    trim (String.singleton c ++ s) = trim s := by
  unfold trim
  rw [String.toList_append, String.toList_singleton, List.singleton_append,
    List.dropWhile_cons_of_pos h]

theorem rdropWhile_prefix_append {α : Type} (p : α → Bool) (l r : List α) :
    l.rdropWhile p <+: (l ++ r).rdropWhile p := by
  induction r using List.reverseRecOn with
  | nil => rw [List.append_nil]
  | append_singleton r x ih =>
    rw [← List.append_assoc]
    by_cases hx : p x = true
    · rwa [List.rdropWhile_concat_pos _ _ _ hx]
    · rw [List.rdropWhile_concat_neg _ _ _ hx, List.append_assoc]
      exact (List.rdropWhile_prefix p l).trans (List.prefix_append l _)

/-- The start of a text is trimmed to a start of what the text is trimmed to. -/
theorem trim_prefix {p s : String} (h : p.toList <+: s.toList) :
    (trim p).toList <+: (trim s).toList := by
  obtain ⟨rest, hrest⟩ := h
  unfold trim
  rw [String.toList_ofList, String.toList_ofList, ← hrest, List.dropWhile_append]
  cases hp : p.toList.dropWhile isWhitespace with
  | nil => simp
  | cons c cs =>
    rw [List.isEmpty_cons, if_neg Bool.false_ne_true, ← hp]
    exact rdropWhile_prefix_append isWhitespace _ rest

/-- A text that ends in no white space still ends so when it is trimmed. -/
theorem getLast?_trim {s : String} {c : Char} (h : s.toList.getLast? = some c)
    (hc : isWhitespace c = false) : (trim s).toList.getLast? = some c := by
  obtain ⟨cs, hcs⟩ := List.getLast?_eq_some_iff.mp h
  have hnot : ¬isWhitespace c = true := by
    rw [hc]
    exact Bool.false_ne_true
  unfold trim
  rw [String.toList_ofList, hcs, List.dropWhile_append]
  split
  · rw [List.dropWhile_cons_of_neg hnot, ← List.nil_append [c], List.rdropWhile_concat_neg _ _ _ hnot]
    rfl
  · rw [List.rdropWhile_concat_neg _ _ _ hnot, List.getLast?_concat]

/-- Of two starts of one text the one with fewer bytes is a start of the other. -/
theorem append_eq_append_of_le {s t u v : String} (h : s ++ u = t ++ v)
    (hsize : s.utf8ByteSize ≤ t.utf8ByteSize) : ∃ w, t = s ++ w ∧ u = w ++ v := by
  have hlists : s.toList ++ u.toList = t.toList ++ v.toList := by
    rw [← String.toList_append, h, String.toList_append]
  rcases List.append_eq_append_iff.mp hlists with ⟨w, ht, hu⟩ | ⟨w, hs, hv⟩
  · refine ⟨String.ofList w, ?_, ?_⟩
    · rw [← String.toList_inj, String.toList_append, String.toList_ofList, ht]
    · rw [← String.toList_inj, String.toList_append, String.toList_ofList, hu]
  · have hs : s = t ++ String.ofList w := by
      rw [← String.toList_inj, String.toList_append, String.toList_ofList, hs]
    have hv : v = String.ofList w ++ u := by
      rw [← String.toList_inj, String.toList_append, String.toList_ofList, hv]
    have hzero : (String.ofList w).utf8ByteSize = 0 := by
      rw [hs, String.utf8ByteSize_append] at hsize
      omega
    have hw : String.ofList w = "" := String.utf8ByteSize_eq_zero_iff.mp hzero
    rw [hw] at hs hv
    exact ⟨"", by rw [hs, String.append_empty, String.append_empty], hv.symm⟩

/-- Two starts of one text with as many bytes are the same. -/
theorem append_inj_of_eq {s t u v : String} (h : s ++ u = t ++ v)
    (hsize : s.utf8ByteSize = t.utf8ByteSize) : s = t ∧ u = v := by
  obtain ⟨w, ht, hu⟩ := append_eq_append_of_le h (Nat.le_of_eq hsize)
  have hzero : w.utf8ByteSize = 0 := by
    rw [ht, String.utf8ByteSize_append] at hsize
    omega
  have hw : w = "" := String.utf8ByteSize_eq_zero_iff.mp hzero
  rw [hw] at ht hu
  exact ⟨by rw [ht, String.append_empty], hu⟩

/-- A trimmed text does not end in a space. -/
theorem trim_append_space_ne (s : String) : trim (s ++ " ") ≠ s ++ " " := by
  intro h
  have hlast := (ends_of_trim_eq_self h).2 ' ' (by rw [String.toList_append]; exact List.getLast?_concat)
  exact absurd hlast (by decide)

/-- In a trimmed text something follows each space. -/
theorem trim_ne_empty_of_space {s rest : String} (h : trim (s ++ " " ++ rest) = s ++ " " ++ rest) :
    trim rest ≠ "" := by
  cases hrest : rest.toList.getLast? with
  | none =>
    have hempty : rest = "" := by
      rw [← String.toList_inj]
      exact List.getLast?_eq_none_iff.mp hrest
    rw [hempty, String.append_empty] at h
    exact absurd h (trim_append_space_ne s)
  | some c =>
    have hc : isWhitespace c = false := (ends_of_trim_eq_self h).2 c (by
      rw [String.toList_append, List.getLast?_append, hrest]
      rfl)
    intro hempty
    have hlast := getLast?_trim hrest hc
    rw [hempty] at hlast
    cases hlast

theorem isWhitespace_of_isDigit {c : Char} (h : c.isDigit = true) : isWhitespace c = false := by
  have hlow : 48 ≤ c.val.toNat ∧ c.val.toNat ≤ 57 := by
    simpa [Char.isDigit, UInt32.le_iff_toNat_le] using h
  simp only [isWhitespace, Bool.or_eq_false_iff, Bool.and_eq_false_iff, decide_eq_false_iff_not,
    UInt32.le_iff_toNat_le, UInt32.ext_iff, UInt32.toNat_ofNat]
  omega

theorem isDigit_of_mem_repr {n : Nat} {c : Char} (h : c ∈ n.repr.toList) : c.isDigit = true := by
  rw [Nat.toList_repr] at h
  exact Nat.isDigit_of_mem_toDigits (by decide) (by decide) h

@[simp] theorem trim_repr (n : Nat) : trim n.repr = n.repr :=
  trim_eq_self fun _ hc => isWhitespace_of_isDigit (isDigit_of_mem_repr hc)

/-- The decimal text of a number is read back. -/
theorem digits?_repr (n : Nat) : digits? n.repr.toList = some n := by
  have hdigits : (Nat.toDigits 10 n).all Char.isDigit = true :=
    List.all_eq_true.mpr fun _ hc => isDigit_of_mem_repr (Nat.toList_repr ▸ hc)
  have hne : Nat.toDigits 10 n ≠ [] := Nat.toDigits_ne_nil
  rw [Nat.toList_repr, digits?, if_pos (by simp [hne, hdigits])]
  have hvalue := Nat.ofDigitChars_toDigits (b := 10) (n := n) (by decide) (by decide)
  rw [Nat.ofDigitChars_eq_foldl] at hvalue
  simpa [Nat.mul_comm] using hvalue

theorem parseUsize_repr {n : Nat} (h : n < 2 ^ 64) : parseUsize n.repr = some n := by
  have hplus : ∀ cs, n.repr.toList ≠ '+' :: cs := by
    intro cs hcs
    have hmem : '+' ∈ n.repr.toList := hcs ▸ List.mem_cons_self
    exact absurd (isDigit_of_mem_repr hmem) (by decide)
  unfold parseUsize
  split
  case h_1 cs hcs => exact absurd hcs (hplus cs)
  case h_2 => rw [digits?_repr, Option.filter_some, if_pos (by simpa using h)]

theorem splitOnce_append {sep : Char} {s t : String} (h : sep ∉ s.toList) :
    splitOnce sep (s ++ String.singleton sep ++ t) = some (s, t) := by
  have hs : ∀ c ∈ s.toList, decide (c ≠ sep) = true := by
    intro c hc
    have hne : c ≠ sep := fun heq => h (heq ▸ hc)
    simpa using hne
  have hlist : (s ++ String.singleton sep ++ t).toList = s.toList ++ sep :: t.toList := by
    simp
  unfold splitOnce
  rw [hlist, if_pos (by simp), List.takeWhile_append_of_pos hs, List.dropWhile_append_of_pos hs]
  simp

/-- The decimal text of an integer has digits and a minus sign. -/
theorem not_mem_toString {c : Char} (hminus : c ≠ '-') (hdigit : c.isDigit = false) (n : Int) :
    c ∉ (toString n).toList := by
  have hrepr : ∀ m : Nat, c ∉ m.repr.toList := by
    intro m hc
    rw [Nat.toList_repr] at hc
    have := Nat.isDigit_of_mem_toDigits (by decide) (by decide) hc
    rw [hdigit] at this
    cases this
  rw [Int.toString_eq_repr, Int.repr_eq_if]
  split
  · exact hrepr _
  · rw [String.toList_append]
    intro hc
    rcases List.mem_append.mp hc with hc | hc
    · exact hminus (List.mem_singleton.mp hc)
    · exact hrepr _ hc

/-- What is left of a text is not blank. -/
theorem isBlank_of_trimmed? {s t : String} (h : trimmed? s = some t) : isBlank t = false := by
  obtain ⟨hblank, rfl⟩ := trimmed?_eq_some_iff.mp h
  rw [isBlank_trim, hblank]

end Lib.Text
