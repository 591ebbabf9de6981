import NetworkFileServer.Relay.DeclaredAllowlist

/-!
# The `--allow` option

`parse_allow_entry` takes `type:ref:role` apart from both ends, so that the reference may have colons of its
own. The first and the last colon of what it accepts are different ones.
-/

namespace NetworkFileServer.Agent

open Relay (SubjectType Role AllowEntry enumMember enumMember_subjectType enumMember_role)

/-- The `ValueError`s of `parse_allow_entry`. -/
inductive AllowEntryError where
  /-- `--allow must be 'type:ref:role' (e.g. user:alice:write), got ...` -/
  | malformed (spec : String)
  /-- `--allow reference must be non-empty in ...` -/
  | emptyReference (spec : String)
  /-- `--allow type must be 'user' or 'group', got ...` -/
  | unknownType (typeStr : String)
  /-- `--allow role must be read|write|receive, got ...` -/
  | unknownRole (roleStr : String)
deriving DecidableEq, Repr

def parseAllowEntry (spec : String) : Except AllowEntryError AllowEntry :=
  let (typeStr, sepHead, rest) := Text.partition ':' spec
  let (ref, sepTail, roleStr) := Text.rpartition ':' rest
  if sepHead = "" ∨ sepTail = "" then .error (.malformed spec)
  else
    let (typeStr, ref, roleStr) := (Text.strip typeStr, Text.strip ref, Text.strip roleStr)
    if ref = "" then .error (.emptyReference spec)
    else
      match enumMember [.user, .group] SubjectType.value typeStr with
      | none => .error (.unknownType typeStr)
      | some subjectType =>
          match enumMember [.read, .write, .receive] Role.value roleStr with
          | none => .error (.unknownRole roleStr)
          | some role => .ok ⟨subjectType, ref, role⟩

/-- The grammar: a type, a reference and a role with colons between them, and room around each. -/
def Spells (spec : String) (e : AllowEntry) : Prop :=
  ∃ a b c, spec = a ++ ":" ++ b ++ ":" ++ c ∧ ':' ∉ a.toList ∧ ':' ∉ c.toList ∧
    Text.strip a = e.subjectType.value ∧ Text.strip c = e.role.value ∧
    Text.strip b = e.subjectRef ∧ Text.strip b ≠ ""

theorem parseAllowEntry_cases (spec : String) :
    parseAllowEntry spec = .error (.malformed spec) ∨
      ∃ a b c, spec = a ++ ":" ++ b ++ ":" ++ c ∧ ':' ∉ a.toList ∧ ':' ∉ c.toList := by
  by_cases hhead : ':' ∈ spec.toList
  · obtain ⟨a, rest, ha, rfl⟩ := Text.exists_first hhead
    by_cases htail : ':' ∈ rest.toList
    · obtain ⟨b, c, hc, rfl⟩ := Text.exists_last htail
      right
      refine ⟨a, b, c, ?_, ha, hc⟩
      simp only [String.append_assoc]
    · left
      simp only [parseAllowEntry, Text.partition_append ha, Text.rpartition_of_notMem htail, or_true, if_true]
  · left
    simp only [parseAllowEntry, Text.partition_of_notMem hhead, true_or, if_true]

theorem parseAllowEntry_parts (a b c : String) (ha : ':' ∉ a.toList) (hc : ':' ∉ c.toList) (e : AllowEntry) :
    parseAllowEntry (a ++ ":" ++ b ++ ":" ++ c) = .ok e ↔
      Text.strip a = e.subjectType.value ∧ Text.strip c = e.role.value ∧
        Text.strip b = e.subjectRef ∧ Text.strip b ≠ "" := by
  have hhead : Text.partition ':' (a ++ ":" ++ b ++ ":" ++ c) = (a, ":", b ++ ":" ++ c) := by
    have hassoc : a ++ ":" ++ b ++ ":" ++ c = a ++ ":" ++ (b ++ ":" ++ c) := by
      simp only [String.append_assoc]
    rw [hassoc]
    exact Text.partition_append ha _
  have htail : Text.rpartition ':' (b ++ ":" ++ c) = (b, ":", c) := Text.rpartition_append b hc
  have hcolon : ¬((":" : String) = "" ∨ (":" : String) = "") := by decide
  obtain ⟨subjectType, ref, role⟩ := e
  simp only [parseAllowEntry, hhead, htail, if_neg hcolon]
  rw [← enumMember_subjectType, ← enumMember_role]
  by_cases hempty : Text.strip b = ""
  · simp [hempty]
  · rw [if_neg hempty]
    cases enumMember [.user, .group] SubjectType.value (Text.strip a) with
    | none => simp
    | some t =>
        cases enumMember [.read, .write, .receive] Role.value (Text.strip c) with
        | none => simp
        | some o => simp [hempty, and_left_comm, and_comm]

theorem parseAllowEntry_iff (spec : String) (e : AllowEntry) : parseAllowEntry spec = .ok e ↔ Spells spec e := by
  constructor
  · intro h
    rcases parseAllowEntry_cases spec with herror | ⟨a, b, c, rfl, ha, hc⟩
    · rw [herror] at h
      cases h
    · exact ⟨a, b, c, rfl, ha, hc, (parseAllowEntry_parts a b c ha hc e).mp h⟩
  · rintro ⟨a, b, c, rfl, ha, hc, hparts⟩
    exact (parseAllowEntry_parts a b c ha hc e).mpr hparts

theorem SubjectType.value_plain (t : SubjectType) : ':' ∉ t.value.toList ∧ Text.strip t.value = t.value := by
  cases t <;> decide

theorem Role.value_plain (role : Role) : ':' ∉ role.value.toList ∧ Text.strip role.value = role.value := by
  cases role <;> decide

/-- The text of an entry. -/
def spell (e : AllowEntry) : String := e.subjectType.value ++ ":" ++ e.subjectRef ++ ":" ++ e.role.value

theorem spells_spell (e : AllowEntry) (href : e.subjectRef ≠ "") (hstrip : Text.strip e.subjectRef = e.subjectRef) :
    Spells (spell e) e := by
  obtain ⟨hcolon, hvalue⟩ := SubjectType.value_plain e.subjectType
  obtain ⟨hcolon', hvalue'⟩ := Role.value_plain e.role
  refine ⟨e.subjectType.value, e.subjectRef, e.role.value, rfl, hcolon, hcolon', hvalue, hvalue', hstrip, ?_⟩
  rw [hstrip]
  exact href

theorem parseAllowEntry_spell (spec : String) (e : AllowEntry) (h : parseAllowEntry spec = .ok e) :
    parseAllowEntry (spell e) = .ok e := by
  obtain ⟨a, b, c, -, -, -, -, -, hb, hne⟩ := (parseAllowEntry_iff spec e).mp h
  rw [parseAllowEntry_iff]
  apply spells_spell
  · rw [← hb]
    exact hne
  · rw [← hb, Text.strip_strip]

/-- The parser accepts its grammar, and nothing else. -/
theorem parseAllowEntry_acceptsGrammar :
    (∀ spec t r o, parseAllowEntry spec = .ok ⟨t, r, o⟩ ↔ Spells spec ⟨t, r, o⟩) ∧
      (∀ spec, (¬∃ e, Spells spec e) → ∃ error, parseAllowEntry spec = .error error) ∧
      ∀ (t : SubjectType) (r : String) (o : Role), r ≠ "" → Text.strip r = r →
        parseAllowEntry (t.value ++ ":" ++ r ++ ":" ++ o.value) = .ok ⟨t, r, o⟩ := by
  refine ⟨fun spec t r o => parseAllowEntry_iff spec ⟨t, r, o⟩, ?_, ?_⟩
  · intro spec hnone
    cases hparse : parseAllowEntry spec with
    | error error => exact ⟨error, rfl⟩
    | ok e => exact absurd ⟨e, (parseAllowEntry_iff spec e).mp hparse⟩ hnone
  · intro t r o hne hstrip
    exact (parseAllowEntry_iff _ _).mpr (spells_spell ⟨t, r, o⟩ hne hstrip)

/-- The reference keeps its colons. -/
theorem parseAllowEntry_acceptsGrammar_colons :
    parseAllowEntry "group:app:files:eng:read" = .ok ⟨.group, "app:files:eng", .read⟩ :=
  parseAllowEntry_acceptsGrammar.2.2 .group "app:files:eng" .read (by decide) (by decide)

/-- A single colon is not taken for two. -/
example : parseAllowEntry "user:alice" = .error (.malformed "user:alice") := by decide +kernel

end NetworkFileServer.Agent
