import Mathlib.Data.List.Chain
import Mathlib.Data.List.TakeWhile
import NetworkFileServer.Framework.OrderedDict

/-!
# JSON texts

`json.loads`, and `json.dumps` for dictionaries of strings and integers. A string is a sequence of code points, the
surrogates among them. The decoder reads one character after the other and keeps the open arrays and objects on a
stack. The interpreter bounds that stack (a `RecursionError`) and the digits of an integer (a `ValueError`).
-/

namespace JsonText

/-- A code point of a Python string. -/
abbrev CodePoint := Fin 0x110000

abbrev PyStr := List CodePoint

def codePoint (c : Char) : CodePoint :=
  ⟨c.toNat, by
    have hvalid := c.valid
    simp only [UInt32.isValidChar, Nat.isValidChar] at hvalid
    simp only [Char.toNat]
    omega⟩

def pyStr (s : String) : PyStr := s.toList.map codePoint

inductive Value where
  | null
  | bool (b : Bool)
  | int (n : Int)
  /-- A number with a fraction or an exponent, a NaN or an infinity, by its text. -/
  | float (text : List Char)
  | str (s : PyStr)
  | arr (items : List Value)
  | obj (fields : List (PyStr × Value))

structure Limits where
  /-- How many arrays and objects may be open. -/
  depth : Nat
  /-- How many digits an integer may have. -/
  digits : Nat

inductive LoadsError where
  /-- A `JSONDecodeError`. -/
  | decodeError
  | recursionError
  | valueError
deriving DecidableEq

/-- A character of a string, or a `\\u` escape, which may be the half of a pair. -/
inductive StrItem where
  | plain (c : CodePoint)
  | escaped (unit : Fin 0x10000)
deriving DecidableEq

/-- Where the decoder is in a string: between characters, after a backslash, or among the digits of an escape. -/
inductive StrMode where
  | plain
  | escape
  | hex (digits : List (Fin 16))
deriving DecidableEq

def hexValue (c : Char) : Option (Fin 16) :=
  if '0' ≤ c ∧ c ≤ '9' then some (Fin.ofNat 16 (c.toNat - 48))
  else if 'a' ≤ c ∧ c ≤ 'f' then some (Fin.ofNat 16 (c.toNat - 87))
  else if 'A' ≤ c ∧ c ≤ 'F' then some (Fin.ofNat 16 (c.toNat - 55))
  else none

def hexNumber (digits : List (Fin 16)) : Nat := digits.foldl (fun n h => 16 * n + h.val) 0

/-- The character that a backslash and `c` stand for. -/
def unescape (c : Char) : Option CodePoint :=
  match c with
  | '"' => some (codePoint '"')
  | '\\' => some (codePoint '\\')
  | '/' => some (codePoint '/')
  | 'b' => some (codePoint '\x08')
  | 'f' => some (codePoint '\x0C')
  | 'n' => some (codePoint '\n')
  | 'r' => some (codePoint '\r')
  | 't' => some (codePoint '\t')
  | _ => none

def isHighSurrogate (n : Nat) : Bool := 0xD800 ≤ n && n ≤ 0xDBFF

def isLowSurrogate (n : Nat) : Bool := 0xDC00 ≤ n && n ≤ 0xDFFF

/-- `Py_UNICODE_JOIN_SURROGATES` -/
def joinSurrogates (high low : Nat) : CodePoint := Fin.ofNat _ (0x10000 + (high - 0xD800) * 0x400 + (low - 0xDC00))

/-- Two escapes in a row that are a pair are one character. -/
def joinItems : List StrItem → PyStr
  | [] => []
  | .plain c :: items => c :: joinItems items
  | [.escaped unit] => [⟨unit.val, by omega⟩]
  | .escaped high :: .escaped low :: items =>
      if isHighSurrogate high.val && isLowSurrogate low.val then
        joinSurrogates high.val low.val :: joinItems items
      else ⟨high.val, by omega⟩ :: joinItems (.escaped low :: items)
  | .escaped unit :: .plain c :: items => ⟨unit.val, by omega⟩ :: c :: joinItems items

def isNumberChar (c : Char) : Bool := c.isDigit || c ∈ ['-', '+', '.', 'e', 'E']

/-- The fraction that a text begins with, if there is one. -/
def fraction : List Char → List Char
  | '.' :: rest => if rest.takeWhile Char.isDigit = [] then [] else '.' :: rest.takeWhile Char.isDigit
  | _ => []

/-- The sign that a text begins with. -/
def sign : List Char → List Char
  | '-' :: _ => ['-']
  | '+' :: _ => ['+']
  | _ => []

def exponent : List Char → List Char
  | e :: rest =>
      let digits := (rest.drop (sign rest).length).takeWhile Char.isDigit
      if (e = 'e' ∨ e = 'E') ∧ digits ≠ [] then e :: sign rest ++ digits else []
  | [] => []

/-- What `_match_number` sees in a text. -/
structure NumberParts where
  negative : Bool
  digits : List Char
  fraction : List Char
  exponent : List Char
  rest : List Char

def numberParts (chars : List Char) : NumberParts :=
  let negative := chars.head? = some '-'
  let unsigned := if negative then chars.tail else chars
  let digits := if unsigned.head? = some '0' then ['0'] else unsigned.takeWhile Char.isDigit
  let behind := unsigned.drop digits.length
  let frac := fraction behind
  let exp := exponent (behind.drop frac.length)
  ⟨negative, digits, frac, exp, (behind.drop frac.length).drop exp.length⟩

def intValue (negative : Bool) (digits : List Char) : Int :=
  if negative then -(Nat.ofDigitChars 10 digits 0 : Int) else Nat.ofDigitChars 10 digits 0

/-- `_match_number`, on a maximal run of characters of numbers: the integer is converted before the rest of the run is
found to be in the way. -/
def numberValue (limits : Limits) (chars : List Char) : Except LoadsError Value :=
  let parts := numberParts chars
  if parts.digits = [] then .error .decodeError
  else if parts.fraction = [] ∧ parts.exponent = [] then
    if limits.digits < parts.digits.length then .error .valueError
    else if parts.rest = [] then .ok (.int (intValue parts.negative parts.digits))
    else .error .decodeError
  else if parts.rest = [] then .ok (.float chars)
  else .error .decodeError

/-- An open array with its items so far, or an open object with its entries so far and its last key. -/
inductive Frame where
  | array (items : List Value)
  | object (fields : List (PyStr × Value)) (key : PyStr)

inductive Mode where
  | value
  /-- After an opening bracket. -/
  | firstItem
  /-- After an opening brace. -/
  | firstKey
  | key
  | colon
  /-- After a value in an array or an object. -/
  | next
  | string (isKey : Bool) (mode : StrMode) (items : List StrItem)
  | number (chars : List Char)
  /-- A word of which these characters are missing. -/
  | word (missing : List Char) (v : Value)
  | done (v : Value)

structure State where
  stack : List Frame
  mode : Mode

def isSpace (c : Char) : Bool := c ∈ [' ', '\t', '\n', '\r']

/-- A value is complete. -/
def complete (v : Value) : List Frame → State
  | [] => ⟨[], .done v⟩
  | .array items :: stack => ⟨.array (items ++ [v]) :: stack, .next⟩
  | .object fields key :: stack => ⟨.object (OrderedDict.set fields key v) key :: stack, .next⟩

def openFrame (limits : Limits) (stack : List Frame) (frame : Frame) (mode : Mode) : Except LoadsError State :=
  if limits.depth ≤ stack.length then .error .recursionError else .ok ⟨frame :: stack, mode⟩

/-- The first character of a value. -/
def stepValue (limits : Limits) (stack : List Frame) (c : Char) : Except LoadsError State :=
  match c with
  | '"' => .ok ⟨stack, .string false .plain []⟩
  | '[' => openFrame limits stack (.array []) .firstItem
  | '{' => openFrame limits stack (.object [] []) .firstKey
  | 'n' => .ok ⟨stack, .word ['u', 'l', 'l'] .null⟩
  | 't' => .ok ⟨stack, .word ['r', 'u', 'e'] (.bool true)⟩
  | 'f' => .ok ⟨stack, .word ['a', 'l', 's', 'e'] (.bool false)⟩
  | 'N' => .ok ⟨stack, .word ['a', 'N'] (.float ['N', 'a', 'N'])⟩
  | 'I' => .ok ⟨stack, .word ['n', 'f', 'i', 'n', 'i', 't', 'y'] (.float ['I', 'n', 'f'])⟩
  | c => if c = '-' ∨ c.isDigit = true then .ok ⟨stack, .number [c]⟩ else .error .decodeError

/-- A character after a value. -/
def stepNext (s : State) (c : Char) : Except LoadsError State :=
  if isSpace c then .ok s
  else
    match s.stack, c with
    | .array items :: stack, ']' => .ok (complete (.arr items) stack)
    | .array _ :: _, ',' => .ok ⟨s.stack, .value⟩
    | .object fields _ :: stack, '}' => .ok (complete (.obj fields) stack)
    | .object _ _ :: _, ',' => .ok ⟨s.stack, .key⟩
    | _, _ => .error .decodeError

/-- The end of a string. -/
def closeString (isKey : Bool) (s : PyStr) (stack : List Frame) : Except LoadsError State :=
  match isKey, stack with
  | false, stack => .ok (complete (.str s) stack)
  | true, .object fields _ :: stack => .ok ⟨.object fields s :: stack, .colon⟩
  | true, _ => .error .decodeError

def stepString (stack : List Frame) (isKey : Bool) (items : List StrItem) (c : Char) :
    StrMode → Except LoadsError State
  | .plain =>
      if c = '"' then closeString isKey (joinItems items) stack
      else if c = '\\' then .ok ⟨stack, .string isKey .escape items⟩
      else if c.toNat < 0x20 then .error .decodeError
      else .ok ⟨stack, .string isKey .plain (items ++ [.plain (codePoint c)])⟩
  | .escape =>
      if c = 'u' then .ok ⟨stack, .string isKey (.hex []) items⟩
      else
        match unescape c with
        | some p => .ok ⟨stack, .string isKey .plain (items ++ [.plain p])⟩
        | none => .error .decodeError
  | .hex digits =>
      match hexValue c with
      | none => .error .decodeError
      | some h =>
          if digits.length < 3 then .ok ⟨stack, .string isKey (.hex (digits ++ [h])) items⟩
          else .ok ⟨stack, .string isKey .plain (items ++ [.escaped (Fin.ofNat _ (hexNumber (digits ++ [h])))])⟩

def stepWord (stack : List Frame) (v : Value) (c : Char) : List Char → Except LoadsError State
  | [] => .error .decodeError
  | [last] => if c = last then .ok (complete v stack) else .error .decodeError
  | next :: missing => if c = next then .ok ⟨stack, .word missing v⟩ else .error .decodeError

def step (limits : Limits) (s : State) (c : Char) : Except LoadsError State :=
  match s.mode with
  | .value => if isSpace c then .ok s else stepValue limits s.stack c
  | .firstItem => if isSpace c then .ok s else if c = ']' then stepNext s c else stepValue limits s.stack c
  | .firstKey =>
      if isSpace c then .ok s
      else if c = '"' then .ok ⟨s.stack, .string true .plain []⟩
      else if c = '}' then stepNext s c
      else .error .decodeError
  | .key =>
      if isSpace c then .ok s
      else if c = '"' then .ok ⟨s.stack, .string true .plain []⟩
      else .error .decodeError
  | .colon => if isSpace c then .ok s else if c = ':' then .ok ⟨s.stack, .value⟩ else .error .decodeError
  | .next | .done _ => stepNext s c
  | .string isKey mode items => stepString s.stack isKey items c mode
  | .word missing v => stepWord s.stack v c missing
  | .number chars =>
      if isNumberChar c then .ok ⟨s.stack, .number (chars ++ [c])⟩
      else if chars = ['-'] ∧ c = 'I' then
        .ok ⟨s.stack, .word ['n', 'f', 'i', 'n', 'i', 't', 'y'] (.float ['-', 'I', 'n', 'f'])⟩
      else
        match numberValue limits chars with
        | .ok v => stepNext (complete v s.stack) c
        | .error e => .error e

def finish (limits : Limits) (s : State) : Except LoadsError Value :=
  match s.mode with
  | .done v => .ok v
  | .number chars =>
      match numberValue limits chars with
      | .ok v => if s.stack.isEmpty then .ok v else .error .decodeError
      | .error e => .error e
  | _ => .error .decodeError

def run (limits : Limits) (s : State) (text : List Char) : Except LoadsError State := text.foldlM (step limits) s

/-- `json.loads(text)` -/
def loads (limits : Limits) (text : String) : Except LoadsError Value :=
  match run limits ⟨[], .value⟩ text.toList with
  | .ok s => finish limits s
  | .error e => .error e

/-- The decoder has run into a limit of the interpreter. -/
def HitsLimit {α : Type*} (result : Except LoadsError α) : Prop :=
  result = .error .recursionError ∨ result = .error .valueError

/-- The first limits are no larger than the second. -/
structure Limits.Within (limits limits' : Limits) : Prop where
  depth : limits.depth ≤ limits'.depth
  digits : limits.digits ≤ limits'.digits

section Within

variable {limits limits' : Limits} (hwithin : limits.Within limits')
include hwithin

theorem openFrame_of_within (stack : List Frame) (frame : Frame) (mode : Mode)
    (h : ¬ HitsLimit (openFrame limits stack frame mode)) :
    openFrame limits' stack frame mode = openFrame limits stack frame mode := by
  have hdepth := hwithin.depth
  unfold openFrame at h ⊢
  by_cases hfull : limits.depth ≤ stack.length
  · rw [if_pos hfull] at h
    exact absurd (.inl rfl) h
  · rw [if_neg hfull, if_neg (by omega)]

theorem numberValue_of_within (chars : List Char) (h : ¬ HitsLimit (numberValue limits chars)) :
    numberValue limits' chars = numberValue limits chars := by
  have hdigits := hwithin.digits
  unfold numberValue at h ⊢
  generalize numberParts chars = parts at h ⊢
  simp only at h ⊢
  by_cases hnone : parts.digits = []
  · rw [if_pos hnone, if_pos hnone]
  rw [if_neg hnone] at h
  rw [if_neg hnone, if_neg hnone]
  by_cases hint : parts.fraction = [] ∧ parts.exponent = []
  · rw [if_pos hint] at h
    rw [if_pos hint, if_pos hint]
    by_cases hlong : limits.digits < parts.digits.length
    · rw [if_pos hlong] at h
      exact absurd (.inr rfl) h
    · rw [if_neg hlong, if_neg (by omega)]
  · rw [if_neg hint, if_neg hint]

theorem stepValue_of_within (stack : List Frame) (c : Char) (h : ¬ HitsLimit (stepValue limits stack c)) :
    stepValue limits' stack c = stepValue limits stack c := by
  unfold stepValue at h ⊢
  split
  · rfl
  · exact openFrame_of_within hwithin stack _ _ h
  · exact openFrame_of_within hwithin stack _ _ h
  all_goals rfl

theorem step_of_within (s : State) (c : Char) (h : ¬ HitsLimit (step limits s c)) :
    step limits' s c = step limits s c := by
  obtain ⟨stack, mode⟩ := s
  cases mode with
  | value =>
      simp only [step] at h ⊢
      split
      · rfl
      · rename_i hspace
        rw [if_neg hspace] at h
        exact stepValue_of_within hwithin stack c h
  | firstItem =>
      simp only [step] at h ⊢
      split
      · rfl
      · rename_i hspace
        rw [if_neg hspace] at h
        split
        · rfl
        · rename_i hclose
          rw [if_neg hclose] at h
          exact stepValue_of_within hwithin stack c h
  | number chars =>
      simp only [step] at h ⊢
      split
      · rfl
      · rename_i hchar
        rw [if_neg hchar] at h
        split
        · rfl
        · rename_i hword
          rw [if_neg hword] at h
          have hnumber : ¬ HitsLimit (numberValue limits chars) := by
            rintro (hlimit | hlimit) <;>
            · rw [hlimit] at h
              exact h (by simp [HitsLimit])
          rw [numberValue_of_within hwithin chars hnumber]
  | _ => rfl

theorem finish_of_within (s : State) (h : ¬ HitsLimit (finish limits s)) : finish limits' s = finish limits s := by
  obtain ⟨stack, mode⟩ := s
  cases mode with
  | number chars =>
      simp only [finish] at h ⊢
      have hnumber : ¬ HitsLimit (numberValue limits chars) := by
        rintro (hlimit | hlimit) <;>
        · rw [hlimit] at h
          exact h (by simp [HitsLimit])
      rw [numberValue_of_within hwithin chars hnumber]
  | _ => rfl

theorem run_of_within (s : State) (text : List Char) (h : ¬ HitsLimit (run limits s text)) :
    run limits' s text = run limits s text := by
  unfold run at h ⊢
  induction text generalizing s with
  | nil => rfl
  | cons c text ih =>
      rw [List.foldlM_cons] at h
      rw [List.foldlM_cons, List.foldlM_cons]
      cases hstep : step limits s c with
      | error e =>
          have hfree : ¬ HitsLimit (step limits s c) := by
            rw [hstep] at h ⊢
            intro hlimit
            apply h
            rw [HitsLimit, Except.error.injEq, Except.error.injEq] at hlimit
            rcases hlimit with rfl | rfl
            · exact .inl rfl
            · exact .inr rfl
          rw [step_of_within hwithin s c hfree, hstep]
          rfl
      | ok next =>
          rw [hstep] at h
          have hsame := step_of_within hwithin s c (by rw [hstep]; simp [HitsLimit])
          rw [hsame, hstep]
          exact ih next h

/-- A text that is decoded without running into a limit is decoded in the same way under larger limits. -/
theorem loads_of_within (text : String) (h : ¬ HitsLimit (loads limits text)) :
    loads limits' text = loads limits text := by
  unfold loads at h ⊢
  cases hrun : run limits ⟨[], .value⟩ text.toList with
  | error e =>
      simp only [hrun] at h
      have hsame := run_of_within hwithin ⟨[], .value⟩ text.toList (by rw [hrun]; simpa [HitsLimit] using h)
      rw [hsame, hrun]
  | ok s =>
      simp only [hrun] at h
      have hsame := run_of_within hwithin ⟨[], .value⟩ text.toList (by rw [hrun]; simp [HitsLimit])
      rw [hsame, hrun]
      exact finish_of_within hwithin s h

end Within

/-- The text is JSON for a value: it is decoded to it if the limits are large enough. -/
def IsJson (text : String) (v : Value) : Prop := ∃ limits, loads limits text = .ok v

theorem loads_eq_ok_iff (limits : Limits) (text : String) (h : ¬ HitsLimit (loads limits text)) (v : Value) :
    loads limits text = .ok v ↔ IsJson text v := by
  constructor
  · intro hok
    exact ⟨limits, hok⟩
  · rintro ⟨limits', hok⟩
    -- Both readings are those under limits that are as large as either.
    have hleft : limits.Within ⟨max limits.depth limits'.depth, max limits.digits limits'.digits⟩ :=
      ⟨Nat.le_max_left _ _, Nat.le_max_left _ _⟩
    have hright : limits'.Within ⟨max limits.depth limits'.depth, max limits.digits limits'.digits⟩ :=
      ⟨Nat.le_max_right _ _, Nat.le_max_right _ _⟩
    have hsame := loads_of_within hleft text h
    have hjoint := loads_of_within hright text (by simp [hok, HitsLimit])
    rw [← hsame, hjoint, hok]

def hexChar (h : Fin 16) : Char := if h.val < 10 then Char.ofNat (48 + h.val) else Char.ofNat (87 + h.val)

/-- A `\\u` escape. -/
def unicodeEscape (unit : Fin 0x10000) : List Char :=
  ['\\', 'u', hexChar (Fin.ofNat 16 (unit.val / 4096)), hexChar (Fin.ofNat 16 (unit.val / 256)),
    hexChar (Fin.ofNat 16 (unit.val / 16)), hexChar (Fin.ofNat 16 unit.val)]

def highSurrogate (c : CodePoint) : Fin 0x10000 := Fin.ofNat _ (0xD800 + (c.val - 0x10000) / 0x400)

def lowSurrogate (c : CodePoint) : Fin 0x10000 := Fin.ofNat _ (0xDC00 + (c.val - 0x10000) % 0x400)

/-- A character as `ensure_ascii` writes it. -/
def escapeChar (c : CodePoint) : List Char :=
  if c.val = 34 then ['\\', '"']
  else if c.val = 92 then ['\\', '\\']
  else if c.val = 10 then ['\\', 'n']
  else if c.val = 13 then ['\\', 'r']
  else if c.val = 9 then ['\\', 't']
  else if c.val = 12 then ['\\', 'f']
  else if c.val = 8 then ['\\', 'b']
  else if 0x20 ≤ c.val ∧ c.val ≤ 0x7E then [Char.ofNat c.val]
  else if h : c.val < 0x10000 then unicodeEscape ⟨c.val, h⟩
  else unicodeEscape (highSurrogate c) ++ unicodeEscape (lowSurrogate c)

def dumpStr (s : PyStr) : List Char := '"' :: (s.flatMap escapeChar ++ ['"'])

/-- `int.__repr__`, `none` for the `ValueError` of a number with too many digits. -/
def dumpInt (limits : Limits) (n : Int) : Option (List Char) :=
  if limits.digits < n.natAbs.repr.length then none else some (toString n).toList

def dumpEntry (entry : PyStr × List Char) : List Char := dumpStr entry.1 ++ ':' :: ' ' :: entry.2

/-- The text of a dictionary, from the texts of its values. -/
def dumpObject (entries : List (PyStr × List Char)) : List Char :=
  '{' :: ([',', ' '].intercalate (entries.map dumpEntry) ++ ['}'])

theorem run_append (limits : Limits) (s : State) (text text' : List Char) :
    run limits s (text ++ text') = (run limits s text).bind fun s' => run limits s' text' := by
  unfold run
  rw [List.foldlM_append]
  rfl

theorem run_cons (limits : Limits) (s : State) (c : Char) (text : List Char) :
    run limits s (c :: text) = (step limits s c).bind fun s' => run limits s' text := rfl

theorem run_singleton (limits : Limits) (s : State) (c : Char) : run limits s [c] = step limits s c := by
  rw [run_cons]
  cases step limits s c <;> rfl

theorem hexValue_hexChar : ∀ h : Fin 16, hexValue (hexChar h) = some h := by decide

theorem hexNumber_digits (n : Nat) (h : n < 0x10000) :
    hexNumber [Fin.ofNat 16 (n / 4096), Fin.ofNat 16 (n / 256), Fin.ofNat 16 (n / 16), Fin.ofNat 16 n] = n := by
  simp only [hexNumber, List.foldl_cons, List.foldl_nil, Fin.ofNat]
  omega

/-- What a character is in the scan of its escape. -/
def itemsOf (c : CodePoint) : List StrItem :=
  if c.val ∈ [34, 92, 10, 13, 9, 12, 8] ∨ (0x20 ≤ c.val ∧ c.val ≤ 0x7E) then [.plain c]
  else if h : c.val < 0x10000 then [.escaped ⟨c.val, h⟩]
  else [.escaped (highSurrogate c), .escaped (lowSurrogate c)]

theorem run_unicodeEscape (limits : Limits) (stack : List Frame) (isKey : Bool) (items : List StrItem)
    (unit : Fin 0x10000) :
    run limits ⟨stack, .string isKey .plain items⟩ (unicodeEscape unit) =
      .ok ⟨stack, .string isKey .plain (items ++ [.escaped unit])⟩ := by
  have hunit : (Fin.ofNat 0x10000 (hexNumber [Fin.ofNat 16 (unit.val / 4096), Fin.ofNat 16 (unit.val / 256),
      Fin.ofNat 16 (unit.val / 16), Fin.ofNat 16 unit.val])) = unit := by
    rw [hexNumber_digits unit.val unit.isLt, Fin.ofNat_val_eq_self]
  have hhex : ∀ (digits : List (Fin 16))
    (h : Fin 16), step limits ⟨stack, .string isKey (.hex digits) items⟩ (hexChar h) =
      if digits.length < 3 then .ok ⟨stack, .string isKey (.hex (digits ++ [h])) items⟩
      else .ok ⟨stack, .string isKey .plain (items ++ [.escaped (Fin.ofNat _ (hexNumber (digits ++ [h])))])⟩ := by
    intro digits h
    simp only [step, stepString, hexValue_hexChar]
  have hslash : step limits ⟨stack, .string isKey .plain items⟩ '\\' = .ok ⟨stack, .string isKey .escape items⟩ := rfl
  have hu : step limits ⟨stack, .string isKey .escape items⟩ 'u' = .ok ⟨stack, .string isKey (.hex []) items⟩ := rfl
  unfold unicodeEscape
  simp only [run_cons, hslash, hu, hhex, Except.bind, List.length_nil, List.nil_append, List.length_cons,
    List.cons_append, Nat.zero_add, Nat.reduceAdd, Nat.reduceLT, if_true, if_false]
  rw [hunit]
  rfl

theorem run_escapePair (limits : Limits) (stack : List Frame) (isKey : Bool) (items : List StrItem)
    (unit unit' : Fin 0x10000) :
    run limits ⟨stack, .string isKey .plain items⟩ (unicodeEscape unit ++ unicodeEscape unit') =
      .ok ⟨stack, .string isKey .plain (items ++ [.escaped unit, .escaped unit'])⟩ := by
  rw [run_append, run_unicodeEscape]
  simp only [Except.bind]
  rw [run_unicodeEscape, List.append_assoc, List.singleton_append]

theorem step_escape (limits : Limits) (stack : List Frame) (isKey : Bool) (items : List StrItem) (c : Char)
    (p : CodePoint) (hu : c ≠ 'u') (hp : unescape c = some p) :
    run limits ⟨stack, .string isKey .plain items⟩ ['\\', c] =
      .ok ⟨stack, .string isKey .plain (items ++ [.plain p])⟩ := by
  have hslash : step limits ⟨stack, .string isKey .plain items⟩ '\\' = .ok ⟨stack, .string isKey .escape items⟩ := rfl
  have hc : step limits ⟨stack, .string isKey .escape items⟩ c =
      .ok ⟨stack, .string isKey .plain (items ++ [.plain p])⟩ := by
    simp only [step, stepString, hu, if_false, hp]
  rw [run_cons, hslash]
  exact (run_singleton _ _ _).trans hc

theorem step_printable (limits : Limits) (stack : List Frame) (isKey : Bool) (items : List StrItem) (c : CodePoint)
    (hquote : c.val ≠ 34) (hslash : c.val ≠ 92) (hlow : 0x20 ≤ c.val) (hhigh : c.val ≤ 0x7E) :
    run limits ⟨stack, .string isKey .plain items⟩ [Char.ofNat c.val] =
      .ok ⟨stack, .string isKey .plain (items ++ [.plain c])⟩ := by
  have hnat : (Char.ofNat c.val).toNat = c.val := by
    have hvalid : c.val.isValidChar := .inl (by omega)
    rw [Char.ofNat, dif_pos hvalid]
    rfl
  have hne : ∀ k : Char, k.toNat ≠ c.val → Char.ofNat c.val ≠ k := by
    rintro k hk rfl
    exact hk hnat
  have hcode : codePoint (Char.ofNat c.val) = c := Fin.ext hnat
  rw [run_singleton]
  simp only [step, stepString, hne '"' (by simpa using hquote.symm), hne '\\' (by simpa using hslash.symm), if_false,
    hnat, hcode]
  rw [if_neg (by omega)]

theorem run_escapeChar (limits : Limits) (stack : List Frame) (isKey : Bool) (items : List StrItem) (c : CodePoint) :
    run limits ⟨stack, .string isKey .plain items⟩ (escapeChar c) =
      .ok ⟨stack, .string isKey .plain (items ++ itemsOf c)⟩ := by
  unfold escapeChar itemsOf
  have hshort : ∀ (k : Char) (n : Nat) (hn : n < 0x110000), c.val = n → k ≠ 'u' → unescape k = some ⟨n, hn⟩ →
      n ∈ [34, 92, 10, 13, 9, 12, 8] →
      run limits ⟨stack, .string isKey .plain items⟩ ['\\', k] = .ok ⟨stack, .string isKey .plain
        (items ++ if c.val ∈ [34, 92, 10, 13, 9, 12, 8] ∨ (0x20 ≤ c.val ∧ c.val ≤ 0x7E) then [.plain c]
          else if h : c.val < 0x10000 then [.escaped ⟨c.val, h⟩]
          else [.escaped (highSurrogate c), .escaped (lowSurrogate c)])⟩ := by
    intro k n hn hc hk hp hmem
    subst hc
    rw [if_pos (.inl hmem)]
    exact step_escape limits stack isKey items k c hk hp
  split
  · rename_i hc
    exact hshort '"' 34 (by decide) hc (by decide) rfl (by decide)
  split
  · rename_i hc
    exact hshort '\\' 92 (by decide) hc (by decide) rfl (by decide)
  split
  · rename_i hc
    exact hshort 'n' 10 (by decide) hc (by decide) rfl (by decide)
  split
  · rename_i hc
    exact hshort 'r' 13 (by decide) hc (by decide) rfl (by decide)
  split
  · rename_i hc
    exact hshort 't' 9 (by decide) hc (by decide) rfl (by decide)
  split
  · rename_i hc
    exact hshort 'f' 12 (by decide) hc (by decide) rfl (by decide)
  split
  · rename_i hc
    exact hshort 'b' 8 (by decide) hc (by decide) rfl (by decide)
  rename_i hquote hslash hnewline hreturn htab hfeed hback
  by_cases hprint : 0x20 ≤ c.val ∧ c.val ≤ 0x7E
  · rw [if_pos hprint, if_pos (.inr hprint)]
    exact step_printable limits stack isKey items c hquote hslash hprint.1 hprint.2
  · have hother : ¬ (c.val ∈ [34, 92, 10, 13, 9, 12, 8] ∨ (0x20 ≤ c.val ∧ c.val ≤ 0x7E)) := by
      rintro (hmem | hrange)
      · simp only [List.mem_cons, List.not_mem_nil, or_false] at hmem
        omega
      · exact hprint hrange
    rw [if_neg hprint, if_neg hother]
    by_cases hsmall : c.val < 0x10000
    · rw [dif_pos hsmall, dif_pos hsmall]
      exact run_unicodeEscape limits stack isKey items _
    · rw [dif_neg hsmall, dif_neg hsmall]
      exact run_escapePair limits stack isKey items _ _

theorem run_escapes (limits : Limits) (stack : List Frame) (isKey : Bool) (items : List StrItem) (s : PyStr) :
    run limits ⟨stack, .string isKey .plain items⟩ (s.flatMap escapeChar) =
      .ok ⟨stack, .string isKey .plain (items ++ s.flatMap itemsOf)⟩ := by
  induction s generalizing items with
  | nil =>
      rw [List.flatMap_nil, List.flatMap_nil, List.append_nil]
      rfl
  | cons c s ih =>
      rw [List.flatMap_cons, List.flatMap_cons, run_append, run_escapeChar]
      refine (ih (items ++ itemsOf c)).trans ?_
      rw [List.append_assoc]

/-- No high surrogate stands right before a low one: together they would be read as one character. -/
def WellPaired (s : PyStr) : Prop := s.IsChain fun a b => ¬ (isHighSurrogate a.val = true ∧ isLowSurrogate b.val = true)

theorem pyStr_injective : Function.Injective pyStr := by
  have hcodePoint : Function.Injective codePoint := by
    intro c d h
    exact Char.toNat_inj.mp (Fin.mk.inj h)
  intro s s' h
  exact String.toList_inj.mp (List.map_injective_iff.mpr hcodePoint h)

theorem wellPaired_pyStr (s : String) : WellPaired (pyStr s) := by
  unfold pyStr
  induction s.toList with
  | nil => exact .nil
  | cons c cs ih =>
      cases cs with
      | nil => exact .singleton _
      | cons d cs =>
          refine .cons_cons ?_ ih
          rintro ⟨hhigh, -⟩
          have hvalid := c.valid
          have hval : (codePoint c).val = c.val.toNat := rfl
          simp only [isHighSurrogate, Bool.and_eq_true, decide_eq_true_eq, hval] at hhigh
          simp only [UInt32.isValidChar, Nat.isValidChar] at hvalid
          omega

theorem joinSurrogates_eq (c : CodePoint) (hc : 0x10000 ≤ c.val) :
    isHighSurrogate (highSurrogate c).val = true ∧ isLowSurrogate (lowSurrogate c).val = true ∧
      joinSurrogates (highSurrogate c).val (lowSurrogate c).val = c := by
  have hlt := c.isLt
  have hhigh : (highSurrogate c).val = 0xD800 + (c.val - 0x10000) / 0x400 := by
    simp only [highSurrogate, Fin.ofNat]
    omega
  have hlow : (lowSurrogate c).val = 0xDC00 + (c.val - 0x10000) % 0x400 := by
    simp only [lowSurrogate, Fin.ofNat]
    omega
  rw [hhigh, hlow]
  refine ⟨?_, ?_, ?_⟩
  · simp only [isHighSurrogate, Bool.and_eq_true, decide_eq_true_eq]
    omega
  · simp only [isLowSurrogate, Bool.and_eq_true, decide_eq_true_eq]
    omega
  · apply Fin.ext
    simp only [joinSurrogates, Fin.ofNat]
    omega

theorem joinItems_escaped (unit : Fin 0x10000) (items : List StrItem)
    (h : ∀ low rest, items = .escaped low :: rest →
      ¬ (isHighSurrogate unit.val = true ∧ isLowSurrogate low.val = true)) :
    joinItems (.escaped unit :: items) = ⟨unit.val, by omega⟩ :: joinItems items := by
  cases items with
  | nil => rfl
  | cons item items =>
      cases item with
      | plain c => rfl
      | escaped low =>
          rw [joinItems, if_neg]
          rw [Bool.and_eq_true]
          exact h low items rfl

theorem itemsOf_cases (c : CodePoint) :
    itemsOf c = [.plain c] ∨ (∃ h : c.val < 0x10000, itemsOf c = [.escaped ⟨c.val, h⟩]) ∨
      (0x10000 ≤ c.val ∧ itemsOf c = [.escaped (highSurrogate c), .escaped (lowSurrogate c)]) := by
  unfold itemsOf
  split
  · exact .inl rfl
  split
  · rename_i hsmall
    exact .inr (.inl ⟨hsmall, rfl⟩)
  · rename_i hlarge
    exact .inr (.inr ⟨by omega, rfl⟩)

theorem eq_of_itemsOf_low (c : CodePoint) (low : Fin 0x10000) (items rest : List StrItem)
    (h : itemsOf c ++ items = .escaped low :: rest) (hlow : isLowSurrogate low.val = true) : c.val = low.val := by
  rcases itemsOf_cases c with hitems | ⟨hsmall, hitems⟩ | ⟨hlarge, hitems⟩
  · rw [hitems] at h
    cases h
  · rw [hitems] at h
    have hfirst := StrItem.escaped.inj (List.cons.inj h).1
    exact congrArg Fin.val hfirst
  · rw [hitems] at h
    have hfirst := StrItem.escaped.inj (List.cons.inj h).1
    have hhigh := (joinSurrogates_eq c hlarge).1
    rw [hfirst] at hhigh
    simp only [isHighSurrogate, isLowSurrogate, Bool.and_eq_true, decide_eq_true_eq] at hhigh hlow
    omega

theorem joinItems_flatMap (s : PyStr) (h : WellPaired s) : joinItems (s.flatMap itemsOf) = s := by
  induction s with
  | nil => rfl
  | cons c s ih =>
      have hrest := ih h.tail
      rw [List.flatMap_cons]
      rcases itemsOf_cases c with hitems | ⟨hsmall, hitems⟩ | ⟨hlarge, hitems⟩
      · rw [hitems]
        exact congrArg (c :: ·) hrest
      · rw [hitems]
        refine (joinItems_escaped ⟨c.val, hsmall⟩ _ ?_).trans (congrArg (c :: ·) hrest)
        -- A low surrogate that follows is the next character itself.
        rintro low rest hnext ⟨hhigh, hlow⟩
        cases s with
        | nil => cases hnext
        | cons d s =>
            have hd := eq_of_itemsOf_low d low _ rest hnext hlow
            apply (List.isChain_cons_cons.mp h).1
            rw [hd]
            exact ⟨hhigh, hlow⟩
      · obtain ⟨hhigh, hlow, hjoin⟩ := joinSurrogates_eq c hlarge
        rw [hitems, List.cons_append, List.cons_append, List.nil_append, joinItems,
          if_pos (by rw [hhigh, hlow]; rfl), hjoin, hrest]

theorem run_dumpStr_of_open (limits : Limits) (st : State) (stack : List Frame) (isKey : Bool) (s : PyStr)
    (h : WellPaired s) (hopen : step limits st '"' = .ok ⟨stack, .string isKey .plain []⟩) :
    run limits st (dumpStr s) = closeString isKey s stack := by
  rw [dumpStr, run_cons, hopen]
  simp only [Except.bind]
  rw [run_append, run_escapes]
  simp only [Except.bind]
  rw [run_singleton, List.nil_append]
  simp only [step, stepString, if_true, joinItems_flatMap s h]

theorem run_dumpStr (limits : Limits) (stack : List Frame) (s : PyStr) (h : WellPaired s) :
    run limits ⟨stack, .value⟩ (dumpStr s) = .ok (complete (.str s) stack) :=
  run_dumpStr_of_open limits ⟨stack, .value⟩ stack false s h rfl

theorem run_dumpStr_key (limits : Limits) (stack : List Frame) (fields : List (PyStr × Value)) (key : PyStr)
    (mode : Mode) (hmode : mode = .key ∨ mode = .firstKey) (s : PyStr) (h : WellPaired s) :
    run limits ⟨.object fields key :: stack, mode⟩ (dumpStr s) = .ok ⟨.object fields s :: stack, .colon⟩ := by
  apply run_dumpStr_of_open limits ⟨.object fields key :: stack, mode⟩ (.object fields key :: stack) true s h
  rcases hmode with rfl | rfl <;> rfl

/-- In a dictionary, where a comma or a brace follows, the text is read as the value; `depth` further arrays and
objects may be open meanwhile. -/
def Reads (limits : Limits) (depth : Nat) (text : List Char) (v : Value) : Prop :=
  ∀ (stack : List Frame) (c : Char), stack.length + depth ≤ limits.depth → c = ',' ∨ c = '}' →
    run limits ⟨stack, .value⟩ (text ++ [c]) = step limits (complete v stack) c

theorem reads_dumpStr (limits : Limits) (depth : Nat) (s : PyStr) (h : WellPaired s) :
    Reads limits depth (dumpStr s) (.str s) := by
  intro stack c _ _
  rw [run_append, run_dumpStr limits stack s h]
  exact run_singleton _ _ _

theorem head_toDigits (n : Nat) (h : (Nat.toDigits 10 n).head? = some '0') : n = 0 := by
  induction n using Nat.strongRecOn with
  | _ n ih =>
      rw [Nat.toDigits_eq_if (by decide)] at h
      split at h
      · rename_i hlt
        have hdigit : ∀ k < 10, Nat.digitChar k = '0' → k = 0 := by decide
        exact hdigit n hlt (by simpa using h)
      · rename_i hge
        rw [List.head?_append_of_ne_nil _ Nat.toDigits_ne_nil] at h
        have hzero := ih (n / 10) (by omega) h
        omega

theorem numberParts_toDigits (n : Nat) :
    numberParts (Nat.toDigits 10 n) = ⟨false, Nat.toDigits 10 n, [], [], []⟩ ∧
      numberParts ('-' :: Nat.toDigits 10 n) = ⟨true, Nat.toDigits 10 n, [], [], []⟩ := by
  have hdigits : ∀ c ∈ Nat.toDigits 10 n, c.isDigit = true := fun c hc =>
    Nat.isDigit_of_mem_toDigits (by decide) (by decide) hc
  have hint : (if (Nat.toDigits 10 n).head? = some '0' then ['0'] else (Nat.toDigits 10 n).takeWhile Char.isDigit) =
      Nat.toDigits 10 n := by
    split
    · rename_i hzero
      rw [head_toDigits n hzero]
      rfl
    · exact List.takeWhile_eq_self_iff.mpr hdigits
  have hsign : (Nat.toDigits 10 n).head? ≠ some '-' := by
    intro hminus
    have hdigit := hdigits '-' (List.mem_of_mem_head? hminus)
    exact absurd hdigit (by decide)
  have hrest : fraction [] = [] ∧ exponent [] = [] := ⟨rfl, rfl⟩
  constructor
  · simp only [numberParts, hsign, decide_false, if_false, hint, List.drop_length, hrest,
      List.length_nil, List.drop_zero]
  · simp only [numberParts, List.head?_cons, decide_true, if_true, List.tail_cons, hint, List.drop_length, hrest,
      List.length_nil, List.drop_zero]

theorem step_complete (limits : Limits) (v : Value) (stack : List Frame) (c : Char) :
    step limits (complete v stack) c = stepNext (complete v stack) c := by
  unfold complete
  split <;> rfl

theorem step_number (limits : Limits) (stack : List Frame) (c : Char) (h : c = '-' ∨ c.isDigit = true) :
    step limits ⟨stack, .value⟩ c = .ok ⟨stack, .number [c]⟩ := by
  have hspace : isSpace c = false := by
    rw [← Bool.not_eq_true]
    intro hmem
    simp only [isSpace, List.mem_cons, List.not_mem_nil, or_false, decide_eq_true_eq] at hmem
    rcases hmem with rfl | rfl | rfl | rfl <;> exact absurd h (by decide)
  simp only [step, hspace, Bool.false_eq_true, if_false]
  unfold stepValue
  split
  case h_9 => exact if_pos h
  all_goals exact absurd h (by decide)

theorem run_number (limits : Limits) (stack : List Frame) (chars rest : List Char)
    (h : ∀ c ∈ rest, isNumberChar c = true) :
    run limits ⟨stack, .number chars⟩ rest = .ok ⟨stack, .number (chars ++ rest)⟩ := by
  induction rest generalizing chars with
  | nil =>
      rw [List.append_nil]
      rfl
  | cons c rest ih =>
      obtain ⟨hc, hrest⟩ := List.forall_mem_cons.mp h
      have hstep : step limits ⟨stack, .number chars⟩ c = .ok ⟨stack, .number (chars ++ [c])⟩ := by
        simp only [step, hc, if_true]
      rw [run_cons, hstep]
      refine (ih (chars ++ [c]) hrest).trans ?_
      rw [List.append_assoc, List.singleton_append]

theorem reads_number (limits : Limits) (depth : Nat) (first : Char) (rest : List Char) (v : Value)
    (hfirst : first = '-' ∨ first.isDigit = true) (hrest : ∀ c ∈ rest, isNumberChar c = true)
    (hv : numberValue limits (first :: rest) = .ok v) : Reads limits depth (first :: rest) v := by
  intro stack c _ hc
  have hend : isNumberChar c = false ∧ c ≠ 'I' := by
    rcases hc with rfl | rfl <;> decide
  rw [List.cons_append, run_cons, step_number limits stack first hfirst]
  simp only [Except.bind]
  rw [run_append, run_number limits stack [first] rest hrest]
  simp only [Except.bind]
  rw [run_singleton, step_complete]
  simp only [step, hend.1, Bool.false_eq_true, if_false, hend.2, and_false, List.singleton_append, hv]

theorem isNumberChar_of_digit (n : Nat) (c : Char) (h : c ∈ Nat.toDigits 10 n) : isNumberChar c = true := by
  rw [isNumberChar, Nat.isDigit_of_mem_toDigits (by decide) (by decide) h]
  rfl

theorem numberValue_toDigits (limits : Limits) (n : Nat) (h : (Nat.toDigits 10 n).length ≤ limits.digits) :
    numberValue limits (Nat.toDigits 10 n) = .ok (.int n) ∧
      numberValue limits ('-' :: Nat.toDigits 10 n) = .ok (.int (-n)) := by
  obtain ⟨hplain, hsigned⟩ := numberParts_toDigits n
  have hshort : ¬ limits.digits < (Nat.toDigits 10 n).length := by omega
  constructor
  · simp only [numberValue, hplain, Nat.toDigits_ne_nil, if_false, and_self, if_true, hshort, intValue,
      Bool.false_eq_true, Nat.ofDigitChars_ten_toDigits]
  · simp only [numberValue, hsigned, Nat.toDigits_ne_nil, if_false, and_self, if_true, hshort, intValue,
      Nat.ofDigitChars_ten_toDigits]

theorem reads_dumpInt (limits : Limits) (depth : Nat) (n : Int) (text : List Char) (h : dumpInt limits n = some text) :
    Reads limits depth text (.int n) := by
  unfold dumpInt at h
  split at h
  · cases h
  rename_i hdigits
  cases h
  cases n with
  | ofNat k =>
      have htext : (toString (Int.ofNat k)).toList = Nat.toDigits 10 k := Nat.toList_repr
      have hlength : (Nat.toDigits 10 k).length ≤ limits.digits := by
        rw [Int.natAbs_ofNat', ← String.length_toList, Nat.toList_repr] at hdigits
        omega
      have hv := (numberValue_toDigits limits k hlength).1
      rw [htext]
      cases hchars : Nat.toDigits 10 k with
      | nil => exact absurd hchars Nat.toDigits_ne_nil
      | cons first rest =>
          have hmem : ∀ c ∈ first :: rest, c ∈ Nat.toDigits 10 k := by
            rw [hchars]
            exact fun _ hc => hc
          rw [hchars] at hv
          apply reads_number limits depth first rest _ _ _ hv
          · exact .inr (Nat.isDigit_of_mem_toDigits (by decide) (by decide) (hmem first List.mem_cons_self))
          · intro c hc
            exact isNumberChar_of_digit k c (hmem c (List.mem_cons_of_mem _ hc))
  | negSucc k =>
      have htext : (toString (Int.negSucc k)).toList = '-' :: Nat.toDigits 10 (k + 1) := by
        have hrepr : toString (Int.negSucc k) = "-" ++ (k + 1).repr := rfl
        rw [hrepr, String.toList_append, Nat.toList_repr]
        rfl
      have hlength : (Nat.toDigits 10 (k + 1)).length ≤ limits.digits := by
        rw [Int.natAbs_negSucc, ← String.length_toList, Nat.toList_repr] at hdigits
        exact Nat.le_of_not_lt hdigits
      rw [htext]
      apply reads_number limits depth '-' _ _ (.inl rfl) _ (numberValue_toDigits limits (k + 1) hlength).2
      intro c hc
      exact isNumberChar_of_digit (k + 1) c hc

/-- A key and the text of its value, as the value is read. -/
structure EntryReads (limits : Limits) (depth : Nat) (entry : PyStr × List Char) (field : PyStr × Value) : Prop where
  key : entry.1 = field.1
  paired : WellPaired field.1
  reads : Reads limits depth entry.2 field.2

theorem run_dumpEntry (limits : Limits) (depth : Nat) (stack : List Frame) (fields : List (PyStr × Value))
    (key : PyStr) (mode : Mode) (entry : PyStr × List Char) (field : PyStr × Value) (c : Char)
    (hmode : mode = .key ∨ mode = .firstKey) (h : EntryReads limits depth entry field)
    (hdepth : stack.length + 1 + depth ≤ limits.depth) (hc : c = ',' ∨ c = '}') :
    run limits ⟨.object fields key :: stack, mode⟩ (dumpEntry entry ++ [c]) =
      step limits ⟨.object (OrderedDict.set fields field.1 field.2) field.1 :: stack, .next⟩ c := by
  obtain ⟨k, text⟩ := entry
  obtain ⟨hkey, hpaired, hreads⟩ := h
  obtain rfl : k = field.1 := hkey
  have hcolon : step limits ⟨.object fields field.1 :: stack, .colon⟩ ':' =
      .ok ⟨.object fields field.1 :: stack, .value⟩ := rfl
  have hblank : step limits ⟨.object fields field.1 :: stack, .value⟩ ' ' =
      .ok ⟨.object fields field.1 :: stack, .value⟩ := rfl
  rw [dumpEntry, List.append_assoc, run_append, run_dumpStr_key limits stack fields key mode hmode field.1 hpaired]
  simp only [Except.bind]
  rw [List.cons_append, run_cons, hcolon]
  simp only [Except.bind]
  rw [List.cons_append, run_cons, hblank]
  simp only [Except.bind]
  exact hreads (.object fields field.1 :: stack) c (by simpa using hdepth) hc

theorem run_dumpEntries (limits : Limits) (depth : Nat) (stack : List Frame) (entries : List (PyStr × List Char))
    (new fields : List (PyStr × Value)) (key : PyStr) (mode : Mode) (hmode : mode = .key ∨ mode = .firstKey)
    (hne : entries ≠ []) (h : List.Forall₂ (EntryReads limits depth) entries new)
    (hdepth : stack.length + 1 + depth ≤ limits.depth) :
    run limits ⟨.object fields key :: stack, mode⟩ ([',', ' '].intercalate (entries.map dumpEntry) ++ ['}']) =
      .ok (complete (.obj (new.foldl (fun d e => OrderedDict.set d e.1 e.2) fields)) stack) := by
  induction h generalizing fields key mode with
  | nil => exact absurd rfl hne
  | @cons entry field entries new hentry hrest ih =>
      cases entries with
      | nil =>
          cases hrest
          rw [List.map_cons, List.map_nil, List.intercalate_singleton,
            run_dumpEntry limits depth stack fields key mode entry field '}' hmode hentry hdepth (.inr rfl)]
          rfl
      | cons entry' entries =>
          have htext : [',', ' '].intercalate ((entry :: entry' :: entries).map dumpEntry) ++ ['}'] =
              (dumpEntry entry ++ [',']) ++
                ' ' :: ([',', ' '].intercalate ((entry' :: entries).map dumpEntry) ++ ['}']) := by
            simp only [List.map_cons, List.intercalate_cons_cons, List.append_assoc, List.cons_append, List.nil_append]
          have hcomma : step limits ⟨.object (OrderedDict.set fields field.1 field.2) field.1 :: stack, .next⟩ ',' =
              .ok ⟨.object (OrderedDict.set fields field.1 field.2) field.1 :: stack, .key⟩ := rfl
          have hblank : step limits ⟨.object (OrderedDict.set fields field.1 field.2) field.1 :: stack, .key⟩ ' ' =
              .ok ⟨.object (OrderedDict.set fields field.1 field.2) field.1 :: stack, .key⟩ := rfl
          rw [htext, run_append,
            run_dumpEntry limits depth stack fields key mode entry field ',' hmode hentry hdepth (.inl rfl), hcomma]
          simp only [Except.bind]
          rw [run_cons, hblank]
          exact ih (OrderedDict.set fields field.1 field.2) field.1 .key (.inl rfl) (by simp)

theorem run_dumpObject (limits : Limits) (depth : Nat) (stack : List Frame) (entries : List (PyStr × List Char))
    (fields : List (PyStr × Value)) (h : List.Forall₂ (EntryReads limits depth) entries fields)
    (hkeys : (fields.map Prod.fst).Nodup) (hdepth : stack.length + 1 + depth ≤ limits.depth) :
    run limits ⟨stack, .value⟩ (dumpObject entries) = .ok (complete (.obj fields) stack) := by
  have hopen : step limits ⟨stack, .value⟩ '{' = .ok ⟨.object [] [] :: stack, .firstKey⟩ := by
    have hroom : ¬ limits.depth ≤ stack.length := by omega
    have hstep : step limits ⟨stack, .value⟩ '{' = openFrame limits stack (.object [] []) .firstKey := rfl
    rw [hstep, openFrame, if_neg hroom]
  rw [dumpObject, run_cons, hopen]
  simp only [Except.bind]
  cases h with
  | nil => rfl
  | cons hentry hrest =>
      rw [run_dumpEntries limits depth stack _ _ [] [] .firstKey (.inr rfl) (by simp) (.cons hentry hrest) hdepth]
      have hfill := OrderedDict.fill_of_nodup _ hkeys
      unfold OrderedDict.fill at hfill
      rw [hfill]

theorem reads_dumpObject (limits : Limits) (depth : Nat) (entries : List (PyStr × List Char))
    (fields : List (PyStr × Value)) (h : List.Forall₂ (EntryReads limits depth) entries fields)
    (hkeys : (fields.map Prod.fst).Nodup) : Reads limits (depth + 1) (dumpObject entries) (.obj fields) := by
  intro stack c hdepth _
  rw [run_append, run_dumpObject limits depth stack entries fields h hkeys (by omega)]
  exact run_singleton _ _ _

theorem loads_dumpObject (limits : Limits) (depth : Nat) (entries : List (PyStr × List Char))
    (fields : List (PyStr × Value)) (h : List.Forall₂ (EntryReads limits depth) entries fields)
    (hkeys : (fields.map Prod.fst).Nodup) (hdepth : depth + 1 ≤ limits.depth) :
    loads limits (String.ofList (dumpObject entries)) = .ok (.obj fields) := by
  unfold loads
  rw [String.toList_ofList, run_dumpObject limits depth [] entries fields h hkeys
    (by simpa [Nat.add_comm] using hdepth)]
  rfl

theorem loads_brackets (limits : Limits) (n : Nat) (h : limits.depth < n) :
    loads limits (String.ofList (List.replicate n '[')) = .error .recursionError := by
  have hrun : ∀ (n : Nat) (stack : List Frame) (mode : Mode), mode = .value ∨ mode = .firstItem →
      limits.depth < stack.length + n →
      run limits ⟨stack, mode⟩ (List.replicate n '[') = .error .recursionError ∨ limits.depth < stack.length := by
    intro n
    induction n with
    | zero =>
        intro stack mode _ hlong
        exact .inr hlong
    | succ n ih =>
        intro stack mode hmode hlong
        have hstep : step limits ⟨stack, mode⟩ '[' = openFrame limits stack (.array []) .firstItem := by
          rcases hmode with rfl | rfl <;> rfl
        left
        rw [List.replicate_succ, run_cons, hstep, openFrame]
        by_cases hfull : limits.depth ≤ stack.length
        · rw [if_pos hfull]
          rfl
        · rw [if_neg hfull]
          rcases ih (.array [] :: stack) .firstItem (.inr rfl) (by simp only [List.length_cons]; omega) with
            hrest | hdeep
          · exact hrest
          · simp only [List.length_cons] at hdeep
            omega
  have hstart := (hrun n [] .value (.inl rfl) (by simpa using h)).resolve_right (by simp)
  unfold loads
  rw [String.toList_ofList, hstart]

end JsonText
