import Mathlib.Data.List.Infix

/-!
# Attributes in the text of an HTML document

The tokenizer of HTML, as far as it decides which characters of a document are the value of an attribute: tags and
their attributes, comments, and the elements whose content is text. A value is taken as it is written, with its
character references.
-/

namespace HtmlText

def isSpace (c : Char) : Bool := c = ' ' || c = '\n' || c = '\t' || c = '\r' || c = '\x0c'

def isQuote (c : Char) : Bool := c = '"' || c = '\''

/-- A tag that is being read. -/
structure Tag where
  closing : Bool
  name : List Char
deriving DecidableEq

inductive State where
  | data
  | tagOpen
  | endTagOpen
  | tagName (tag : Tag)
  | beforeName (tag : Tag)
  | name (tag : Tag) (attr : List Char)
  | afterName (tag : Tag) (attr : List Char)
  | beforeValue (tag : Tag) (attr : List Char)
  | quotedValue (tag : Tag) (quote : Char)
  | unquotedValue (tag : Tag)
  /-- Behind `<!`, and one dash or none. -/
  | declaration (dash : Bool)
  | commentStart (dash : Bool)
  | comment (dashes : Nat)
  | commentBang
  | bogusComment
  /-- In the text of an element, with what was read since the last `<`. -/
  | text (element recent : List Char)
deriving DecidableEq

/-- The elements whose content is text. -/
def textElements : List (List Char) :=
  ["script", "style", "title", "textarea", "xmp", "iframe", "noembed", "noframes"].map String.toList

def endOfTag (tag : Tag) : State :=
  if !tag.closing && textElements.contains tag.name then .text tag.name [] else .data

/-- What follows a tag name, an attribute without a value or a value. -/
def betweenAttributes (tag : Tag) (c : Char) : State :=
  if isSpace c || c = '/' then .beforeName tag
  else if c = '>' then endOfTag tag
  else .name tag [c.toLower]

def step : State → Char → State
  | .data, c => if c = '<' then .tagOpen else .data
  | .tagOpen, c =>
      if c = '!' then .declaration false
      else if c = '/' then .endTagOpen
      else if c = '?' then .bogusComment
      else if c = '<' then .tagOpen
      else if c.isAlpha then .tagName ⟨false, [c.toLower]⟩
      else .data
  | .endTagOpen, c =>
      if c = '>' then .data else if c.isAlpha then .tagName ⟨true, [c.toLower]⟩ else .bogusComment
  | .tagName tag, c =>
      if isSpace c || c = '/' then .beforeName tag
      else if c = '>' then endOfTag tag
      else .tagName { tag with name := tag.name ++ [c.toLower] }
  | .beforeName tag, c => betweenAttributes tag c
  | .name tag attr, c =>
      if isSpace c then .afterName tag attr
      else if c = '/' then .beforeName tag
      else if c = '>' then endOfTag tag
      else if c = '=' then .beforeValue tag attr
      else .name tag (attr ++ [c.toLower])
  | .afterName tag attr, c =>
      if isSpace c then .afterName tag attr
      else if c = '=' then .beforeValue tag attr
      else betweenAttributes tag c
  | .beforeValue tag attr, c =>
      if isSpace c then .beforeValue tag attr
      else if isQuote c then .quotedValue tag c
      else if c = '>' then endOfTag tag
      else .unquotedValue tag
  | .quotedValue tag quote, c => if c = quote then .beforeName tag else .quotedValue tag quote
  | .unquotedValue tag, c =>
      if isSpace c then .beforeName tag else if c = '>' then endOfTag tag else .unquotedValue tag
  | .declaration dash, c =>
      if c = '>' then .data
      else if c = '-' then (if dash then .commentStart false else .declaration true)
      else .bogusComment
  | .commentStart dash, c =>
      if c = '>' then .data
      else if c = '-' then (if dash then .comment 2 else .commentStart true)
      else .comment 0
  | .comment dashes, c =>
      if c = '-' then .comment (dashes + 1)
      else if 2 ≤ dashes ∧ c = '>' then .data
      else if 2 ≤ dashes ∧ c = '!' then .commentBang
      else .comment 0
  | .commentBang, c => if c = '>' then .data else if c = '-' then .comment 1 else .comment 0
  | .bogusComment, c => if c = '>' then .data else .bogusComment
  | .text element recent, c =>
      if recent = '<' :: '/' :: element ∧ (isSpace c ∨ c = '/' ∨ c = '>') then
        if c = '>' then .data else .beforeName ⟨true, element⟩
      else if c = '<' then .text element ['<']
      else .text element (recent ++ [c.toLower])

/-- The state behind the beginning of a document. -/
def stateAfter (text : List Char) : State := text.foldl step .data

/-- `value` is the value of an attribute of a start tag, behind `before` and with `behind` after it. -/
inductive IsValue (attr : List Char) : (before value behind : List Char) → Prop
  | quoted (tag : Tag) (quote : Char) (before value behind : List Char) :
      stateAfter before = .beforeValue tag attr → tag.closing = false → isQuote quote = true → quote ∉ value →
      IsValue attr (before ++ [quote]) value (quote :: behind)
  | unquoted (tag : Tag) (before : List Char) (first : Char) (rest : List Char) (last : Char) (behind : List Char) :
      stateAfter before = .beforeValue tag attr → tag.closing = false → isQuote first = false →
      (∀ c ∈ first :: rest, isSpace c = false ∧ c ≠ '>') → (isSpace last = true ∨ last = '>') →
      IsValue attr before (first :: rest) (last :: behind)

theorem endOfTag_ne_beforeValue (tag tag' : Tag) (attr : List Char) : endOfTag tag ≠ .beforeValue tag' attr := by
  unfold endOfTag
  split <;> simp

theorem betweenAttributes_ne_beforeValue (tag tag' : Tag) (c : Char) (attr : List Char) :
    betweenAttributes tag c ≠ .beforeValue tag' attr := by
  unfold betweenAttributes
  split_ifs
  · simp
  · exact endOfTag_ne_beforeValue tag tag' attr
  · simp

theorem step_eq_beforeValue {s : State} {c : Char} {tag : Tag} {attr : List Char}
    (h : step s c = .beforeValue tag attr) : c = '=' ∨ isSpace c = true := by
  cases s with
  | beforeName t => exact absurd h (betweenAttributes_ne_beforeValue t tag c attr)
  | _ =>
      simp only [step] at h
      split_ifs at h <;> simp_all [endOfTag_ne_beforeValue, betweenAttributes_ne_beforeValue]

theorem last_of_beforeValue {text : List Char} {tag : Tag} {attr : List Char}
    (h : stateAfter text = .beforeValue tag attr) :
    ∃ front c, text = front ++ [c] ∧ (c = '=' ∨ isSpace c = true) := by
  rcases List.eq_nil_or_concat text with rfl | ⟨front, c, rfl⟩
  · cases h
  · rw [List.concat_eq_append, stateAfter, List.foldl_append] at h
    exact ⟨front, c, List.concat_eq_append, step_eq_beforeValue h⟩

end HtmlText
