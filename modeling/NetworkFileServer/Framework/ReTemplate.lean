import Mathlib.Data.List.Infix

/-!
# Replacement templates of Python's `re`

`re._parser.parse_template`: the tokens of a template, the escapes it interprets, and the text it stands for at a
match. The pattern has no named groups. What `\g<...>` takes for a group number differs between Python versions
(`int` of the name up to 3.11, its decimal digits after that), and is a parameter.
-/

namespace ReTemplate

/-- A character, or a character behind a backslash. -/
inductive Token where
  | char (c : Char)
  | escape (c : Char)
deriving DecidableEq

def Token.source : Token → List Char
  | .char c => [c]
  | .escape c => ['\\', c]

/-- The `Tokenizer`, which refuses a backslash at the end. -/
def tokens : List Char → Option (List Token)
  | [] => some []
  | ['\\'] => none
  | '\\' :: c :: cs => (tokens cs).map (.escape c :: ·)
  | c :: cs => (tokens cs).map (.char c :: ·)

/-- The ways in which a template is refused: an `re.error`, or an `IndexError` for an unknown group name. -/
inductive Error where
  | endOfTemplate
  | badEscape (c : Char)
  | octalRange
  | missingName
  | badName
  | invalidReference (index : Nat)
deriving DecidableEq

inductive Item where
  | char (c : Char)
  | group (index : Nat)
deriving DecidableEq

def isOctDigit (c : Char) : Bool := '0' ≤ c && c ≤ '7'

def digitValue (c : Char) : Nat := c.toNat - '0'.toNat

def numberOf (base : Nat) (digits : List Char) : Nat := digits.foldl (fun n c => n * base + digitValue c) 0

/-- At most so many octal digits. -/
def octDigits : Nat → List Token → List Char
  | count + 1, .char c :: ts => if isOctDigit c then c :: octDigits count ts else []
  | _, _ => []

/-- `ESCAPES` -/
def controlChar : Char → Option Char
  | 'a' => some '\x07'
  | 'b' => some '\x08'
  | 'f' => some '\x0c'
  | 'n' => some '\n'
  | 'r' => some '\r'
  | 't' => some '\t'
  | 'v' => some '\x0b'
  | _ => none

/-- `getuntil(">")`: the name, and how many tokens were read. -/
def nameUntil : List Token → Option (List Char × Nat)
  | [] => none
  | t :: ts => if t = .char '>' then some ([], 1) else (nameUntil ts).map fun (name, used) =>
    (t.source ++ name, used + 1)

variable (groupNumber : List Char → Option Nat) (groups : Nat)

/-- `addgroup` -/
def addGroup (index used : Nat) : Except Error (List Item × Nat) :=
  if index > groups then .error (.invalidReference index) else .ok ([.group index], used)

/-- `\g<name>` -/
def namedGroup : List Token → Except Error (List Item × Nat)
  | .char '<' :: ts =>
      match nameUntil ts with
      | none | some ([], _) => .error .missingName
      | some (name, used) =>
          match groupNumber name with
          | none => .error .badName
          | some index => addGroup groups index (used + 1)
  | _ => .error .missingName

/-- An escape that begins with a digit from 1 to 9. -/
def numberEscape (c : Char) : List Token → Except Error (List Item × Nat)
  | .char d :: ts =>
      if d.isDigit then
        match octDigits 1 ts with
        | [e] =>
            if isOctDigit c && isOctDigit d then
              if numberOf 8 [c, d, e] > 255 then .error .octalRange
              else .ok ([.char (Char.ofNat (numberOf 8 [c, d, e]))], 2)
            else addGroup groups (numberOf 10 [c, d]) 1
        | _ => addGroup groups (numberOf 10 [c, d]) 1
      else addGroup groups (numberOf 10 [c]) 0
  | _ => addGroup groups (numberOf 10 [c]) 0

/-- What an escape stands for, and how many of the tokens behind it belong to it. -/
def readEscape (c : Char) (ts : List Token) : Except Error (List Item × Nat) :=
  if c = 'g' then namedGroup groupNumber groups ts
  else if c = '0' then
    .ok ([.char (Char.ofNat (numberOf 8 (octDigits 2 ts) % 256))], (octDigits 2 ts).length)
  else if c.isDigit then numberEscape groups c ts
  else if c = '\\' then .ok ([.char '\\'], 0)
  else match controlChar c with
    | some control => .ok ([.char control], 0)
    | none => if c.isAlpha then .error (.badEscape c) else .ok ([.char '\\', .char c], 0)

/-- The loop of `parse_template`, after some tokens that the escape before them has taken. -/
def parse : Nat → List Token → Except Error (List Item)
  | _, [] => .ok []
  | skip + 1, _ :: ts => parse skip ts
  | 0, .char c :: ts => (parse 0 ts).map (.char c :: ·)
  | 0, .escape c :: ts => do
      let (items, used) ← readEscape groupNumber groups c ts
      let rest ← parse used ts
      return items ++ rest

def parseTemplate (template : List Char) : Except Error (List Item) :=
  match tokens template with
  | none => .error .endOfTemplate
  | some ts => parse groupNumber groups 0 ts

/-- The text of a template at a match, whose groups are given. -/
def expand (group : Nat → List Char) (items : List Item) : List Char :=
  items.flatMap fun
    | .char c => [c]
    | .group index => group index

/-- An ASCII letter or digit, or a backslash: behind a backslash, these are interpreted or refused. -/
def isSpecial (c : Char) : Bool := c.isAlphanum || c = '\\'

def sourceOf (ts : List Token) : List Char := ts.flatMap Token.source

/-- No backslash stands before a special character. -/
def Literal (template : List Char) : Prop := ∀ c, ['\\', c] <:+: template → isSpecial c = false

def Token.IsLiteral : Token → Prop
  | .char _ => True
  | .escape c => isSpecial c = false

@[simp] theorem sourceOf_nil : sourceOf [] = [] := rfl

@[simp] theorem sourceOf_cons (t : Token) (ts : List Token) : sourceOf (t :: ts) = t.source ++ sourceOf ts := rfl

@[simp] theorem sourceOf_append (ts ts' : List Token) : sourceOf (ts ++ ts') = sourceOf ts ++ sourceOf ts' :=
  List.flatMap_append

@[simp] theorem sourceOf_chars (cs : List Char) : sourceOf (cs.map .char) = cs := by
  induction cs with
  | nil => rfl
  | cons c cs ih => simp [Token.source, ih]

theorem tokens_cons {c : Char} (cs : List Char) (hc : c ≠ '\\') :
    tokens (c :: cs) = (tokens cs).map (.char c :: ·) := by
  rw [tokens]
  · rintro rfl
    exact absurd rfl hc
  · rintro c cs rfl
    exact absurd rfl hc

theorem sourceOf_tokens (cs : List Char) (ts : List Token) (h : tokens cs = some ts) : sourceOf ts = cs := by
  induction cs using tokens.induct generalizing ts with
  | case1 =>
      cases h
      rfl
  | case2 => cases h
  | case3 c cs ih =>
      obtain ⟨ts', hts', rfl⟩ := Option.map_eq_some_iff.mp h
      simp [Token.source, ih ts' hts']
  | case4 c cs hnil hcons ih =>
      rw [tokens.eq_4 c cs hnil hcons] at h
      obtain ⟨ts', hts', rfl⟩ := Option.map_eq_some_iff.mp h
      simp [Token.source, ih ts' hts']

theorem tokens_concat (cs : List Char) (z : Char) (hz : z ≠ '\\') : ∃ ts, tokens (cs ++ [z]) = some ts := by
  induction cs using tokens.induct with
  | case1 => exact ⟨_, tokens_cons [] hz⟩
  | case2 => exact ⟨_, rfl⟩
  | case3 c cs ih =>
      obtain ⟨ts, hts⟩ := ih
      exact ⟨.escape c :: ts, by simp [tokens, hts]⟩
  | case4 c cs hnil hcons ih =>
      obtain ⟨ts, hts⟩ := ih
      have hc : c ≠ '\\' := by
        rintro rfl
        cases cs with
        | nil => exact hnil rfl rfl
        | cons d cs => exact hcons d cs rfl rfl
      exact ⟨.char c :: ts, by rw [List.cons_append, tokens_cons _ hc, hts]; rfl⟩

theorem isSpecial_backslash : isSpecial '\\' = true := by decide

theorem literal_iff (cs : List Char) (ts : List Token) (h : tokens cs = some ts) :
    Literal cs ↔ ∀ t ∈ ts, t.IsLiteral := by
  induction cs using tokens.induct generalizing ts with
  | case1 =>
      cases h
      simp [Literal]
  | case2 => cases h
  | case3 c cs ih =>
      obtain ⟨ts', hts', rfl⟩ := Option.map_eq_some_iff.mp h
      rw [List.forall_mem_cons, ← ih ts' hts']
      constructor
      · intro hlit
        exact ⟨hlit c ⟨[], cs, rfl⟩, fun d hd => hlit d (hd.trans ⟨['\\', c], [], by simp⟩)⟩
      · rintro ⟨hc, hlit⟩ d hd
        rcases List.infix_cons_iff.mp hd with hbegins | hd
        · obtain rfl : d = c := by simpa using hbegins
          exact hc
        · rcases List.infix_cons_iff.mp hd with hbegins | hd
          · have hslash : '\\' = c := (List.cons_prefix_cons.mp hbegins).1
            subst hslash
            exact absurd (isSpecial_backslash.symm.trans hc) (by decide)
          · exact hlit d hd
  | case4 c cs hnil hcons ih =>
      rw [tokens.eq_4 c cs hnil hcons] at h
      obtain ⟨ts', hts', rfl⟩ := Option.map_eq_some_iff.mp h
      rw [List.forall_mem_cons, ← ih ts' hts', and_iff_right (show (Token.char c).IsLiteral from trivial)]
      constructor
      · exact fun hlit d hd => hlit d (hd.trans (List.suffix_cons c cs).isInfix)
      · intro hlit d hd
        rcases List.infix_cons_iff.mp hd with hbegins | hd
        · obtain ⟨hc, hrest⟩ := List.cons_prefix_cons.mp hbegins
          cases cs with
          | nil => simp at hrest
          | cons e cs => exact absurd rfl (hcons e cs hc.symm)
        · exact hlit d hd

theorem literal_concat (cs : List Char) (z : Char) (hz : isSpecial z = false) :
    Literal (cs ++ [z]) ↔ Literal cs := by
  have hz' : z ≠ '\\' := by
    rintro rfl
    cases hz
  constructor
  · exact fun hlit c hc => hlit c (hc.trans ⟨[], [z], rfl⟩)
  · intro hlit c hc
    rcases List.infix_concat_iff.mp hc with hsuffix | hc
    · obtain rfl : z = c := by
        obtain ⟨before, hbefore⟩ := hsuffix
        have hlast := congrArg List.getLast? hbefore
        simpa using hlast.symm
      exact hz
    · exact hlit c hc

/-- The tokens of an accepted template and what they stand for. -/
inductive Reading : List Token → List Item → Prop
  | nil : Reading [] []
  | char (c : Char) {ts : List Token} {items : List Item} : Reading ts items →
      Reading (.char c :: ts) (.char c :: items)
  | literal (c : Char) {ts : List Token} {items : List Item} : isSpecial c = false → Reading ts items →
      Reading (.escape c :: ts) (.char '\\' :: .char c :: items)
  | backslash {ts : List Token} {items : List Item} : Reading ts items →
      Reading (.escape '\\' :: ts) (.char '\\' :: items)
  | control (c control : Char) {ts : List Token} {items : List Item} : controlChar c = some control →
      Reading ts items → Reading (.escape c :: ts) (.char control :: items)
  | octal (c v : Char) (digits : List Char) {ts : List Token} {items : List Item} : isOctDigit c = true →
      (∀ d ∈ digits, isOctDigit d = true) → Reading ts items →
      Reading (.escape c :: (digits.map .char ++ ts)) (.char v :: items)
  | group (c : Char) (index : Nat) (taken : List Token) {ts : List Token} {items : List Item} :
      isSpecial c = true → index ≤ groups → Reading ts items →
      Reading (.escape c :: (taken ++ ts)) (.group index :: items)

variable {groupNumber groups}

theorem octDigits_spec (count : Nat) (ts : List Token) :
    (∀ d ∈ octDigits count ts, isOctDigit d = true) ∧
      ts = (octDigits count ts).map .char ++ ts.drop (octDigits count ts).length := by
  induction count generalizing ts with
  | zero => simp [octDigits]
  | succ count ih =>
      cases ts with
      | nil => simp [octDigits]
      | cons t ts =>
          cases t with
          | escape c => simp [octDigits]
          | char c =>
              rw [octDigits]
              split
              · rename_i hc
                obtain ⟨hdigits, hsplit⟩ := ih ts
                refine ⟨by simpa [hc] using hdigits, ?_⟩
                simpa using hsplit
              · simp

theorem reading_addGroup {c : Char} {index used : Nat} {ts : List Token} {found items : List Item} {used' : Nat}
    (hc : isSpecial c = true) (h : addGroup groups index used = .ok (found, used'))
    (hrest : Reading groups (ts.drop used') items) : Reading groups (.escape c :: ts) (found ++ items) := by
  unfold addGroup at h
  split at h
  · cases h
  · rename_i hindex
    cases h
    rw [← List.take_append_drop used ts]
    exact .group c index _ hc (by omega) hrest

theorem reading_namedGroup {ts : List Token} {found items : List Item} {used : Nat}
    (h : namedGroup groupNumber groups ts = .ok (found, used)) (hrest : Reading groups (ts.drop used) items) :
    Reading groups (.escape 'g' :: ts) (found ++ items) := by
  unfold namedGroup at h
  split at h
  · split at h
    · cases h
    · cases h
    · split at h
      · cases h
      · exact reading_addGroup (by decide) h hrest
  · cases h

theorem isSpecial_of_isDigit {c : Char} (h : c.isDigit = true) : isSpecial c = true := by
  simp [isSpecial, Char.isAlphanum, h]

theorem reading_numberEscape {c : Char} {ts : List Token} {found items : List Item} {used : Nat}
    (hc : c.isDigit = true) (h : numberEscape groups c ts = .ok (found, used))
    (hrest : Reading groups (ts.drop used) items) : Reading groups (.escape c :: ts) (found ++ items) := by
  have hspecial := isSpecial_of_isDigit hc
  unfold numberEscape at h
  split at h
  · rename_i d ts
    split at h
    · split at h
      · rename_i e he
        split at h
        · rename_i hoct
          split at h
          · cases h
          · cases h
            obtain ⟨hcoct, hdoct⟩ := Bool.and_eq_true_iff.mp hoct
            obtain ⟨hdigits, hsplit⟩ := octDigits_spec 1 ts
            rw [he] at hdigits hsplit
            have hread := Reading.octal c (Char.ofNat (numberOf 8 [c, d, e])) [d, e] hcoct
              (by simpa [hdoct] using hdigits) hrest
            rw [hsplit]
            simpa using hread
        · exact reading_addGroup hspecial h hrest
      · exact reading_addGroup hspecial h hrest
    · exact reading_addGroup hspecial h hrest
  · exact reading_addGroup hspecial h hrest

theorem reading_readEscape {c : Char} {ts : List Token} {found items : List Item} {used : Nat}
    (h : readEscape groupNumber groups c ts = .ok (found, used)) (hrest : Reading groups (ts.drop used) items) :
    Reading groups (.escape c :: ts) (found ++ items) := by
  unfold readEscape at h
  by_cases hg : c = 'g'
  · subst hg
    exact reading_namedGroup h hrest
  rw [if_neg hg] at h
  by_cases hzero : c = '0'
  · subst hzero
    cases h
    obtain ⟨hdigits, hsplit⟩ := octDigits_spec 2 ts
    rw [hsplit]
    exact .octal '0' _ _ (by decide) hdigits hrest
  rw [if_neg hzero] at h
  by_cases hdigit : c.isDigit = true
  · rw [if_pos hdigit] at h
    exact reading_numberEscape hdigit h hrest
  rw [if_neg hdigit] at h
  by_cases hslash : c = '\\'
  · subst hslash
    cases h
    exact .backslash hrest
  rw [if_neg hslash] at h
  cases hcontrol : controlChar c with
  | some control =>
      rw [hcontrol] at h
      cases h
      exact .control c control hcontrol hrest
  | none =>
      rw [hcontrol] at h
      by_cases halpha : c.isAlpha = true
      · simp [halpha] at h
      · simp only [halpha] at h
        cases h
        refine .literal c ?_ hrest
        simp [isSpecial, Char.isAlphanum, halpha, hdigit, hslash]

theorem parse_drop (skip : Nat) (ts : List Token) :
    parse groupNumber groups skip ts = parse groupNumber groups 0 (ts.drop skip) := by
  induction ts generalizing skip with
  | nil => cases skip <;> rfl
  | cons t ts ih =>
      cases skip with
      | zero => rfl
      | succ skip => exact ih skip

theorem reading_of_parse (ts : List Token) (items : List Item) (h : parse groupNumber groups 0 ts = .ok items) :
    Reading groups ts items := by
  induction hlen : ts.length using Nat.strong_induction_on generalizing ts items with
  | _ n ih =>
      subst hlen
      cases ts with
      | nil =>
          cases h
          exact .nil
      | cons t ts =>
          cases t with
          | char c =>
              rw [parse] at h
              cases hrest : parse groupNumber groups 0 ts with
              | error e =>
                  rw [hrest] at h
                  cases h
              | ok rest =>
                  rw [hrest] at h
                  cases h
                  exact .char c (ih ts.length (by simp) ts rest hrest rfl)
          | escape c =>
              rw [parse] at h
              cases hread : readEscape groupNumber groups c ts with
              | error e =>
                  rw [hread] at h
                  cases h
              | ok read =>
                  obtain ⟨found, used⟩ := read
                  rw [hread] at h
                  simp only [bind, Except.bind] at h
                  rw [parse_drop] at h
                  cases hrest : parse groupNumber groups 0 (ts.drop used) with
                  | error e =>
                      rw [hrest] at h
                      cases h
                  | ok rest =>
                      rw [hrest] at h
                      cases h
                      refine reading_readEscape hread (ih (ts.drop used).length ?_ _ rest hrest rfl)
                      rw [List.length_drop, List.length_cons]
                      omega

@[simp] theorem expand_char (group : Nat → List Char) (c : Char) (items : List Item) :
    expand group (.char c :: items) = c :: expand group items := rfl

@[simp] theorem expand_group (group : Nat → List Char) (index : Nat) (items : List Item) :
    expand group (.group index :: items) = group index ++ expand group items := rfl

theorem parse_literal (ts : List Token) (h : ∀ t ∈ ts, t.IsLiteral) :
    parse groupNumber groups 0 ts = .ok ((sourceOf ts).map .char) := by
  induction ts with
  | nil => rfl
  | cons t ts ih =>
      obtain ⟨ht, hts⟩ := List.forall_mem_cons.mp h
      cases t with
      | char c =>
          rw [parse, ih hts]
          rfl
      | escape c =>
          have hc : isSpecial c = false := ht
          have hread : readEscape groupNumber groups c ts = .ok ([.char '\\', .char c], 0) := by
            simp only [isSpecial, Char.isAlphanum, Bool.or_eq_false_iff, decide_eq_false_iff_not] at hc
            obtain ⟨⟨halpha, hdigit⟩, hslash⟩ := hc
            have hcontrol : controlChar c = none := by
              unfold controlChar
              split <;> first | rfl | exact absurd halpha (by decide)
            have hg : c ≠ 'g' := by
              rintro rfl
              exact absurd halpha (by decide)
            have hzero : c ≠ '0' := by
              rintro rfl
              exact absurd hdigit (by decide)
            simp [readEscape, hg, hzero, hdigit, hslash, hcontrol, halpha]
          rw [parse, hread]
          simp only [bind, Except.bind]
          rw [ih hts]
          rfl

theorem expand_chars (group : Nat → List Char) (cs : List Char) : expand group (cs.map .char) = cs := by
  induction cs with
  | nil => rfl
  | cons c cs ih => rw [List.map_cons, expand_char, ih]

theorem last_of_append (cs : List Char) {cs' : List Char} {z : Char} (h : (cs ++ cs').getLast? = some z) (hz : z ∉ cs) :
    cs'.getLast? = some z := by
  cases cs' with
  | nil =>
      rw [List.append_nil] at h
      exact absurd (List.mem_of_getLast? h) hz
  | cons c cs' => simpa using h

/-- The characters that numeric escapes are written with. -/
def isNumeric (c : Char) : Bool := isOctDigit c || c = '\\'

theorem isSpecial_of_isNumeric {c : Char} (h : isNumeric c = true) : isSpecial c = true := by
  simp only [isNumeric, isOctDigit, Bool.or_eq_true, Bool.and_eq_true, decide_eq_true_eq] at h
  rcases h with ⟨hlow, hhigh⟩ | rfl
  · refine isSpecial_of_isDigit ?_
    simp only [Char.isDigit, Bool.and_eq_true, decide_eq_true_eq]
    exact ⟨hlow, Char.le_trans hhigh (by decide : '7' ≤ '9')⟩
  · decide

theorem not_isNumeric_control {c control : Char} (h : controlChar c = some control) : isNumeric control = false := by
  unfold controlChar at h
  split at h <;> first | cases h; decide | cases h

theorem numeric_octal {c : Char} {digits : List Char} (hc : isOctDigit c = true)
    (hdigits : ∀ d ∈ digits, isOctDigit d = true) : ∀ d ∈ '\\' :: c :: digits, isNumeric d = true := by
  intro d hd
  rcases List.mem_cons.mp hd with rfl | hd
  · decide
  · rcases List.mem_cons.mp hd with rfl | hd
    · simp [isNumeric, hc]
    · simp [isNumeric, hdigits d hd]

theorem last_of_not_literal {cs : List Char} {ts : List Token} {z : Char}
    (h : (cs ++ sourceOf ts).getLast? = some z) (hnot : ¬∀ t ∈ ts, t.IsLiteral) :
    (sourceOf ts).getLast? = some z := by
  cases ts with
  | nil => simp at hnot
  | cons t ts =>
      have hne : sourceOf (t :: ts) ≠ [] := by cases t <;> simp [Token.source]
      rwa [List.getLast?_append_of_ne_nil _ hne] at h

section

variable {group : Nat → List Char} {z : Char}

/-- No reading catches up with a text that is ahead of it by characters of numeric escapes: whatever the template
stands for would have to be such characters too, to its end. -/
theorem Reading.expand_ne_ahead {ts : List Token} {items : List Item} (h : Reading groups ts items)
    (hgroup : ∀ index ≤ groups, ∃ c cs, group index = c :: cs ∧ isNumeric c = false)
    (hz : isNumeric z = false) (hlast : (sourceOf ts).getLast? = some z)
    (ahead : List Char) (hne : ahead ≠ []) (hahead : ∀ c ∈ ahead, isNumeric c = true) (r r' : List Char) :
    expand group items ++ r ≠ ahead ++ sourceOf ts ++ r' := by
  induction h generalizing ahead with
  | nil => cases hlast
  | char c hread ih =>
      obtain ⟨a, ahead, rfl⟩ := List.exists_cons_of_ne_nil hne
      intro heq
      simp only [expand_char, sourceOf_cons, Token.source, List.cons_append, List.nil_append, List.append_assoc,
        List.cons.injEq] at heq
      obtain ⟨rfl, htail⟩ := heq
      have hlast' := last_of_append _ hlast (by
        intro hmem
        obtain rfl := List.mem_singleton.mp hmem
        exact absurd (hz.symm.trans (hahead z (by simp))) (by decide))
      refine ih hlast' (ahead ++ [c]) (by simp) ?_ (by simpa using htail)
      intro d hd
      exact hahead d (by simpa [or_comm] using hd)
  | literal c hc hread ih =>
      -- the character behind the backslash would have to be ahead of it
      obtain ⟨a, ahead, rfl⟩ := List.exists_cons_of_ne_nil hne
      intro heq
      simp only [expand_char, sourceOf_cons, Token.source, List.cons_append, List.nil_append, List.append_assoc,
        List.cons.injEq] at heq
      have hnumeric : isNumeric c = true := by
        cases ahead with
        | nil =>
            rw [List.nil_append, List.cons.injEq] at heq
            rw [heq.2.1]
            decide
        | cons b ahead =>
            rw [List.cons_append, List.cons.injEq] at heq
            rw [heq.2.1]
            exact hahead b (by simp)
      exact absurd (isSpecial_of_isNumeric hnumeric) (by simp [hc])
  | backslash hread ih =>
      obtain ⟨a, ahead, rfl⟩ := List.exists_cons_of_ne_nil hne
      intro heq
      simp only [expand_char, sourceOf_cons, Token.source, List.cons_append, List.nil_append, List.append_assoc,
        List.cons.injEq] at heq
      have hlast' := last_of_append _ hlast (by
        intro hmem
        obtain rfl : z = '\\' := by simpa [Token.source] using hmem
        cases hz)
      refine ih hlast' (ahead ++ ['\\', '\\']) (by simp) ?_ (by simpa using heq.2)
      intro d hd
      rcases List.mem_append.mp hd with hd | hd
      · exact hahead d (by simp [hd])
      · obtain rfl : d = '\\' := by simpa using hd
        decide
  | control c control hcontrol hread ih =>
      obtain ⟨a, ahead, rfl⟩ := List.exists_cons_of_ne_nil hne
      intro heq
      rw [expand_char, List.cons_append, List.cons_append, List.cons_append, List.cons.injEq] at heq
      have hnumeric := hahead a (by simp)
      rw [← heq.1, not_isNumeric_control hcontrol] at hnumeric
      cases hnumeric
  | octal c v digits hc hdigits hread ih =>
      obtain ⟨a, ahead, rfl⟩ := List.exists_cons_of_ne_nil hne
      intro heq
      simp only [expand_char, sourceOf_cons, sourceOf_append, sourceOf_chars, Token.source, List.cons_append,
        List.nil_append, List.append_assoc, List.cons.injEq] at heq
      have hescape := numeric_octal hc hdigits
      have hlast' := last_of_append ('\\' :: c :: digits) (by simpa [Token.source] using hlast) (by
        intro hmem
        exact absurd (hz.symm.trans (hescape z hmem)) (by decide))
      refine ih hlast' (ahead ++ '\\' :: c :: digits) (by simp) ?_ (by simpa using heq.2)
      intro d hd
      rcases List.mem_append.mp hd with hd | hd
      · exact hahead d (by simp [hd])
      · exact hescape d hd
  | group c index taken hc hindex hread ih =>
      obtain ⟨d, cs, hgroup, hd⟩ := hgroup index hindex
      obtain ⟨a, ahead, rfl⟩ := List.exists_cons_of_ne_nil hne
      intro heq
      rw [expand_group, hgroup, List.cons_append, List.cons_append, List.cons_append, List.cons_append,
        List.cons.injEq] at heq
      have hnumeric := hahead a (by simp)
      rw [← heq.1, hd] at hnumeric
      cases hnumeric

theorem Reading.expand_ne_source {ts : List Token} {items : List Item} (h : Reading groups ts items)
    (hgroup : ∀ index ≤ groups, ∃ c cs, group index = c :: cs ∧ isNumeric c = false)
    (hz : isNumeric z = false) (hlast : (sourceOf ts).getLast? = some z)
    (hnot : ¬∀ t ∈ ts, t.IsLiteral) (r r' : List Char) :
    expand group items ++ r ≠ sourceOf ts ++ r' := by
  induction h with
  | nil => simp at hnot
  | char c hread ih =>
      have hnot' : ¬∀ t ∈ _, Token.IsLiteral t := fun h => hnot (List.forall_mem_cons.mpr ⟨trivial, h⟩)
      intro heq
      rw [expand_char, sourceOf_cons, Token.source, List.cons_append, List.cons_append, List.nil_append,
        List.cons_append, List.cons.injEq] at heq
      exact ih (last_of_not_literal hlast hnot') hnot' heq.2
  | literal c hc hread ih =>
      have hnot' : ¬∀ t ∈ _, Token.IsLiteral t := fun h => hnot (List.forall_mem_cons.mpr ⟨hc, h⟩)
      intro heq
      simp only [expand_char, sourceOf_cons, Token.source, List.cons_append, List.nil_append,
        List.cons.injEq] at heq
      exact ih (last_of_not_literal hlast hnot') hnot' heq.2.2
  | backslash hread ih =>
      intro heq
      have hlast' := last_of_append _ hlast (by
        intro hmem
        obtain rfl : z = '\\' := by simpa [Token.source] using hmem
        cases hz)
      simp only [expand_char, sourceOf_cons, Token.source, List.cons_append, List.nil_append,
        List.cons.injEq] at heq
      exact hread.expand_ne_ahead hgroup hz hlast' ['\\'] (by simp) (by simp [isNumeric]) r r' heq.2
  | control c control hcontrol hread ih =>
      intro heq
      simp only [expand_char, sourceOf_cons, Token.source, List.cons_append, List.cons.injEq] at heq
      have hnumeric := not_isNumeric_control hcontrol
      rw [heq.1] at hnumeric
      cases hnumeric
  | octal c v digits hc hdigits hread ih =>
      intro heq
      have hescape := numeric_octal hc hdigits
      have hlast' := last_of_append ('\\' :: c :: digits) (by simpa [Token.source] using hlast) (by
        intro hmem
        exact absurd (hz.symm.trans (hescape z hmem)) (by decide))
      simp only [expand_char, sourceOf_cons, sourceOf_append, sourceOf_chars, Token.source, List.cons_append,
        List.nil_append, List.cons.injEq] at heq
      refine hread.expand_ne_ahead hgroup hz hlast' (c :: digits) (by simp) ?_ r r' (by simpa using heq.2)
      exact fun d hd => hescape d (List.mem_cons_of_mem _ hd)
  | group c index taken hc hindex hread ih =>
      obtain ⟨d, cs, hgroup, hd⟩ := hgroup index hindex
      intro heq
      simp only [expand_group, hgroup, sourceOf_cons, Token.source, List.cons_append, List.cons.injEq] at heq
      rw [heq.1] at hd
      cases hd

end

theorem parseTemplate_cons {c : Char} (cs : List Char) (hc : c ≠ '\\') :
    parseTemplate groupNumber groups (c :: cs) = (parseTemplate groupNumber groups cs).map (.char c :: ·) := by
  rw [parseTemplate, parseTemplate, tokens_cons cs hc]
  cases tokens cs with
  | none => rfl
  | some ts => rfl

theorem parseTemplate_group {d c : Char} (cs : List Char) (hd : d.isDigit = true) (hzero : d ≠ '0')
    (hindex : numberOf 10 [d] ≤ groups) (hc : c.isDigit = false) (hslash : c ≠ '\\') :
    parseTemplate groupNumber groups ('\\' :: d :: c :: cs) =
      (parseTemplate groupNumber groups (c :: cs)).map (.group (numberOf 10 [d]) :: ·) := by
  have hg : d ≠ 'g' := by
    rintro rfl
    exact absurd hd (by decide)
  have hread (ts : List Token) :
      readEscape groupNumber groups d (.char c :: ts) = .ok ([.group (numberOf 10 [d])], 0) := by
    unfold readEscape numberEscape addGroup
    rw [if_neg hg, if_neg hzero, if_pos hd]
    simp only [hc, Bool.false_eq_true, if_false, if_neg (Nat.not_lt.mpr hindex)]
  unfold parseTemplate
  rw [tokens, tokens_cons cs hslash]
  cases tokens cs with
  | none => rfl
  | some ts =>
      rw [Option.map_some, Option.map_some]
      change parse groupNumber groups 0 (.escape d :: .char c :: ts) =
        (parse groupNumber groups 0 (.char c :: ts)).map _
      conv_lhs => rw [parse, hread]
      change (parse groupNumber groups 0 (.char c :: ts)).bind _ = _
      cases parse groupNumber groups 0 (.char c :: ts) <;> rfl

theorem parseTemplate_literal {cs : List Char} {z : Char} (h : Literal cs) (hz : isSpecial z = false) :
    parseTemplate groupNumber groups (cs ++ [z]) = .ok ((cs ++ [z]).map .char) := by
  have hz' : z ≠ '\\' := by
    rintro rfl
    cases hz
  obtain ⟨ts, hts⟩ := tokens_concat cs z hz'
  have hliteral := (literal_iff _ ts hts).mp ((literal_concat cs z hz).mpr h)
  rw [parseTemplate, hts, ← sourceOf_tokens _ ts hts]
  exact parse_literal ts hliteral

theorem expand_ne_of_not_literal {cs : List Char} {z : Char} {items : List Item} {group : Nat → List Char}
    (h : ¬Literal cs) (hz : isSpecial z = false)
    (hitems : parseTemplate groupNumber groups (cs ++ [z]) = .ok items)
    (hgroup : ∀ index ≤ groups, ∃ c rest, group index = c :: rest ∧ isNumeric c = false) (r r' : List Char) :
    expand group items ++ r ≠ cs ++ [z] ++ r' := by
  have hnumeric : isNumeric z = false := by
    by_contra hne
    exact absurd (isSpecial_of_isNumeric (by simpa using hne)) (by simp [hz])
  unfold parseTemplate at hitems
  split at hitems
  · cases hitems
  · rename_i ts hts
    have hsource := sourceOf_tokens _ ts hts
    rw [← hsource]
    refine (reading_of_parse ts items hitems).expand_ne_source hgroup hnumeric (by simp [hsource]) ?_ r r'
    rwa [← literal_iff _ ts hts, literal_concat cs z hz]

end ReTemplate
