import Mathlib.Data.List.DropRight
import Mathlib.Data.List.Infix

/-!
# Operations of Python's `str`

Written over the list of characters, so that they evaluate.
-/

namespace Text

/-- `str.lower` of a character of Latin-1, the alphabet of HTTP header names. -/
def lowerChar (c : Char) : Char :=
  if ('A' ≤ c ∧ c ≤ 'Z') ∨ ('À' ≤ c ∧ c ≤ 'Þ' ∧ c ≠ '×') then Char.ofNat (c.toNat + 32) else c

def lower (s : String) : String := String.ofList (s.toList.map lowerChar)

def startsWith (s start : String) : Bool := start.toList.isPrefixOf s.toList

/-- `part in s`. -/
def contains (s part : String) : Bool := decide (part.toList <:+: s.toList)

/-- `str.isascii`. -/
def isAscii (s : String) : Bool := s.toList.all fun c => c.toNat < 128

/-- `str.isspace` of a character. -/
def isSpace (c : Char) : Bool :=
  let n := c.toNat
  (9 ≤ n && n ≤ 13) || (28 ≤ n && n ≤ 32) || n = 0x85 || n = 0xA0 || n = 0x1680 ||
    (0x2000 ≤ n && n ≤ 0x200A) || n = 0x2028 || n = 0x2029 || n = 0x202F || n = 0x205F || n = 0x3000

/-- `str.strip()`. -/
def strip (s : String) : String :=
  String.ofList ((s.toList.dropWhile isSpace).reverse.dropWhile isSpace).reverse

/-- `str.strip` of a set of characters. -/
def stripChars (chars : List Char) (s : String) : String :=
  String.ofList ((s.toList.dropWhile (· ∈ chars)).reverse.dropWhile (· ∈ chars)).reverse

/-- `str.lstrip` of one character. -/
def lstrip (c : Char) (s : String) : String := String.ofList (s.toList.dropWhile (· = c))

/-- `str.partition`: what is before the first separator, the separator, and what is behind it. -/
def partition (sep : Char) (s : String) : String × String × String :=
  match s.toList.dropWhile (· ≠ sep) with
  | [] => (s, "", "")
  | c :: tail => (String.ofList (s.toList.takeWhile (· ≠ sep)), String.ofList [c], String.ofList tail)

/-- `str.rpartition`: the same at the last separator. -/
def rpartition (sep : Char) (s : String) : String × String × String :=
  match s.toList.reverse.dropWhile (· ≠ sep) with
  | [] => ("", "", s)
  | c :: head =>
      (String.ofList head.reverse, String.ofList [c],
        String.ofList (s.toList.reverse.takeWhile (· ≠ sep)).reverse)

theorem strip_strip (s : String) : strip (strip s) = strip s := by
  obtain ⟨cs, hcs⟩ : ∃ cs, s.toList.dropWhile isSpace = cs := ⟨_, rfl⟩
  have hkept : (cs.rdropWhile isSpace).dropWhile isSpace = cs.rdropWhile isSpace := by
    rw [List.dropWhile_eq_self_iff]
    intro hpos
    have hbegins := List.rdropWhile_prefix isSpace cs
    have hself : cs.dropWhile isSpace = cs := by
      rw [← hcs]
      exact List.dropWhile_idempotent isSpace _
    rw [hbegins.getElem hpos]
    exact List.dropWhile_eq_self_iff.mp hself _
  have hstrip : strip s = String.ofList (cs.rdropWhile isSpace) := by
    rw [← hcs]
    rfl
  have htwice : strip (strip s) = String.ofList (((strip s).toList.dropWhile isSpace).rdropWhile isSpace) := rfl
  rw [htwice, hstrip, String.toList_ofList, hkept, List.rdropWhile_idempotent]

section Partition

variable {sep : Char}

private theorem dropWhile_ne_append {a : List Char} (h : sep ∉ a) (b : List Char) :
    (a ++ sep :: b).dropWhile (· ≠ sep) = sep :: b := by
  rw [List.dropWhile_append_of_pos]
  · simp
  · intro c hc
    exact decide_eq_true (ne_of_mem_of_not_mem hc h)

private theorem takeWhile_ne_append {a : List Char} (h : sep ∉ a) (b : List Char) :
    (a ++ sep :: b).takeWhile (· ≠ sep) = a := by
  rw [List.takeWhile_append_of_pos]
  · simp
  · intro c hc
    exact decide_eq_true (ne_of_mem_of_not_mem hc h)

private theorem dropWhile_ne_of_notMem {a : List Char} (h : sep ∉ a) : a.dropWhile (· ≠ sep) = [] := by
  rw [List.dropWhile_eq_nil_iff]
  intro c hc
  exact decide_eq_true (ne_of_mem_of_not_mem hc h)

theorem partition_append {a : String} (h : sep ∉ a.toList) (b : String) :
    partition sep (a ++ String.ofList [sep] ++ b) = (a, String.ofList [sep], b) := by
  have hlist : (a ++ String.ofList [sep] ++ b).toList = a.toList ++ sep :: b.toList := by simp
  rw [partition, hlist, dropWhile_ne_append h, takeWhile_ne_append h]
  simp only [String.ofList_toList]

theorem partition_of_notMem {s : String} (h : sep ∉ s.toList) : partition sep s = (s, "", "") := by
  rw [partition, dropWhile_ne_of_notMem h]

theorem rpartition_append (a : String) {b : String} (h : sep ∉ b.toList) :
    rpartition sep (a ++ String.ofList [sep] ++ b) = (a, String.ofList [sep], b) := by
  have hlist : (a ++ String.ofList [sep] ++ b).toList.reverse = b.toList.reverse ++ sep :: a.toList.reverse := by
    simp
  have hb : sep ∉ b.toList.reverse := by simpa using h
  rw [rpartition, hlist, dropWhile_ne_append hb, takeWhile_ne_append hb]
  simp only [List.reverse_reverse, String.ofList_toList]

theorem rpartition_of_notMem {s : String} (h : sep ∉ s.toList) : rpartition sep s = ("", "", s) := by
  rw [rpartition, dropWhile_ne_of_notMem (by simpa using h)]

theorem exists_first {s : String} (h : sep ∈ s.toList) :
    ∃ a b, sep ∉ a.toList ∧ s = a ++ String.ofList [sep] ++ b := by
  obtain ⟨a, b, hs, ha⟩ := List.eq_append_cons_of_mem h
  refine ⟨String.ofList a, String.ofList b, by simpa using ha, ?_⟩
  apply String.toList_inj.mp
  simp [hs]

theorem exists_last {s : String} (h : sep ∈ s.toList) :
    ∃ a b, sep ∉ b.toList ∧ s = a ++ String.ofList [sep] ++ b := by
  obtain ⟨b, a, hs, hb⟩ := List.eq_append_cons_of_mem (List.mem_reverse.mpr h)
  refine ⟨String.ofList a.reverse, String.ofList b.reverse, by simpa using hb, ?_⟩
  apply String.toList_inj.mp
  rw [← List.reverse_inj, hs]
  simp

end Partition

theorem natRepr_injective : Function.Injective Nat.repr := by
  intro m n h
  have hdigits : Nat.toDigits 10 m = Nat.toDigits 10 n := by
    simpa [Nat.toList_repr] using congrArg String.toList h
  simpa using congrArg (fun cs => Nat.ofDigitChars 10 cs 0) hdigits

theorem toString_intro (n : Int) (P : String → Prop) (hnat : ∀ k : Nat, P k.repr)
    (hneg : ∀ k : Nat, P ("-" ++ k.repr)) : P (toString n) := by
  cases n with
  | ofNat k => exact hnat k
  | negSucc k => exact hneg (k + 1)

theorem digit_of_mem_repr (k : Nat) (c : Char) (h : c ∈ k.repr.toList) : c.isDigit = true := by
  rw [Nat.toList_repr] at h
  exact Nat.isDigit_of_mem_toDigits (by decide) (by decide) h

theorem toString_injective : Function.Injective (toString : Int → String) := by
  have hsign : ∀ m n : Nat, m.repr ≠ "-" ++ n.repr := by
    intro m n h
    have hmem : '-' ∈ m.repr.toList := by simp [h]
    exact absurd (digit_of_mem_repr m _ hmem) (by decide)
  intro m n h
  cases m with
  | ofNat m =>
      cases n with
      | ofNat n => exact congrArg Int.ofNat (natRepr_injective h)
      | negSucc n => exact absurd h (hsign m (n + 1))
  | negSucc m =>
      cases n with
      | ofNat n => exact absurd h.symm (hsign n (m + 1))
      | negSucc n =>
          have hrepr : "-" ++ (m + 1).repr = "-" ++ (n + 1).repr := h
          have hsucc := natRepr_injective (String.append_right_inj _ |>.mp hrepr)
          rw [Nat.succ.inj hsucc]

end Text
