import NetworkFileServer.Framework.HtmlText
import NetworkFileServer.Relay.AssetInsertion

/-!
# The values that rewriting changes

The pattern takes every text that looks like `src="/` for an asset path. An attribute's value is changed by it where
the value begins so, and also where it contains such a text.
-/

namespace NetworkFileServer.Relay

open HtmlText

/-- One slash at the beginning, and not `/m/`. -/
def RootRelative (value : List Char) : Prop :=
  ['/'] <+: value ∧ ¬['/', '/'] <+: value ∧ ¬['/', 'm', '/'] <+: value

/-- The value begins with two slashes, right behind an opener. -/
def BeginsProtocolRelative (before value : List Char) : Prop :=
  (∃ opener ∈ openers, opener <:+ before) ∧ ['/', '/'] <+: value

/-- The value contains an opener and a slash that no `m/` follows. -/
def ContainsAsset (value : List Char) : Prop :=
  ∃ front, ∃ opener ∈ openers, ∃ rest, value = front ++ opener ++ '/' :: rest ∧ ¬['m', '/'] <+: rest

variable (groupNumber : List Char → Option Nat)

/-- Each `src` or `href` value of a document that the rewriting for a code changes is root-relative. The rewritten
document is what becomes of the text before the value, of the value and of the text behind it. -/
def OnlyRootRelative (html code : String) : Prop :=
  ∀ items, codeTemplate groupNumber code = .ok items →
    ∀ attr ∈ ["src".toList, "href".toList], ∀ before value behind, html.toList = before ++ value ++ behind →
      IsValue attr before value behind →
      replaceSlashes (slashText items) before value behind ≠ value → RootRelative value

/-- The template of the code is refused, or each `src` or `href` value that is not root-relative neither begins with
two slashes right behind an opener nor contains an asset path. -/
def NothingForeign (html code : String) : Prop :=
  ∀ items, codeTemplate groupNumber code = .ok items →
    ∀ attr ∈ ["src".toList, "href".toList], ∀ before value behind, html.toList = before ++ value ++ behind →
      IsValue attr before value behind → ¬RootRelative value →
      ¬BeginsProtocolRelative before value ∧ ¬ContainsAsset value

section

variable {slash : List Char → List Char}

theorem length_le_replaceSlashes (hslash : ∀ opener, 1 < (slash opener).length) (before part behind : List Char) :
    part.length ≤ (replaceSlashes slash before part behind).length := by
  induction part generalizing before with
  | nil => simp
  | cons c part ih =>
      have hrest := ih (before ++ [c])
      cases hasset : assetSlash before (c :: part ++ behind) with
      | none =>
          rw [replaceSlashes_kept hasset, List.length_cons, List.length_cons]
          omega
      | some opener =>
          have hlength := hslash opener
          rw [replaceSlashes_replaced hasset, List.length_cons, List.length_append]
          omega

theorem replaceSlashes_eq_self_iff (hslash : ∀ opener, 1 < (slash opener).length) (before part behind : List Char) :
    replaceSlashes slash before part behind = part ↔
      ∀ front c rest, part = front ++ c :: rest → assetSlash (before ++ front) (c :: rest ++ behind) = none := by
  constructor
  · intro hsame front c rest hpart
    by_contra hsome
    obtain ⟨opener, hopener⟩ := Option.ne_none_iff_exists'.mp hsome
    have hlength := congrArg List.length hsame
    have hfront := length_le_replaceSlashes hslash before front (c :: rest ++ behind)
    have hrest := length_le_replaceSlashes hslash (before ++ front ++ [c]) rest behind
    have hgrow := hslash opener
    rw [hpart, replaceSlashes_append, replaceSlashes_replaced hopener] at hlength
    simp only [List.length_append, List.length_cons] at hlength hfront hrest
    omega
  · intro hnone
    induction part generalizing before with
    | nil => rfl
    | cons c part ih =>
        have hfirst := hnone [] c part rfl
        rw [List.append_nil] at hfirst
        rw [replaceSlashes_kept hfirst, ih (before ++ [c])]
        intro front d rest hpart
        have hnext := hnone (c :: front) d rest (by rw [hpart]; rfl)
        rwa [List.append_assoc, List.singleton_append]

end

theorem opener_neighbours {front rest : List Char} {l f : Char} (h : front ++ l :: f :: rest ∈ openers) :
    isQuote l = false ∧ isSpace l = false ∧ (l = '=' → isQuote f = true) := by
  have hall : ∀ opener ∈ openers, ∀ i ∈ List.range opener.length, (opener[i]?.all fun l =>
      opener[i + 1]?.all fun f => !isQuote l && !isSpace l && (l != '=' || isQuote f)) = true := by decide
  have hpair := hall _ h front.length (by simp)
  have hl : (front ++ l :: f :: rest)[front.length]? = some l := by simp
  have hf : (front ++ l :: f :: rest)[front.length + 1]? = some f := by simp
  rw [hl, Option.all_some, hf, Option.all_some, Bool.and_eq_true, Bool.and_eq_true, Bool.or_eq_true] at hpair
  obtain ⟨⟨hquote, hspace⟩, hequals⟩ := hpair
  refine ⟨by simpa using hquote, by simpa using hspace, ?_⟩
  rintro rfl
  simpa using hequals

theorem around_value {attr before value behind : List Char} (h : IsValue attr before value behind) :
    (∃ front l, before = front ++ [l] ∧
      (isQuote l = true ∨ isSpace l = true ∨ l = '=' ∧ ∀ f ∈ value.head?, isQuote f = false)) ∧
    ∃ d rest, behind = d :: rest ∧ d ≠ 'm' ∧ d ≠ '/' := by
  cases h with
  | quoted tag quote before value behind hstate hopen hquote hmem =>
      refine ⟨⟨before, quote, rfl, .inl hquote⟩, quote, behind, rfl, ?_, ?_⟩
      · rintro rfl
        cases hquote
      · rintro rfl
        cases hquote
  | unquoted tag before first rest last behind hstate hopen hfirst hall hlast =>
      obtain ⟨front, l, rfl, hl⟩ := last_of_beforeValue hstate
      refine ⟨⟨front, l, rfl, ?_⟩, last, behind, rfl, ?_, ?_⟩
      · rcases hl with hl | hl
        · exact .inr (.inr ⟨hl, by simpa using hfirst⟩)
        · exact .inr (.inl hl)
      · rintro rfl
        revert hlast
        decide
      · rintro rfl
        revert hlast
        decide

theorem opener_in_value {attr before value behind front : List Char} (h : IsValue attr before value behind)
    (hfront : front <+: value) (hne : front ≠ []) {opener : List Char} (hmem : opener ∈ openers)
    (hsuffix : opener <:+ before ++ front) : opener <:+ front := by
  rcases List.suffix_or_suffix_of_suffix hsuffix (List.suffix_append before front) with hin | ⟨start, hstart⟩
  · exact hin
  obtain ⟨⟨front', l, rfl, hl⟩, -⟩ := around_value h
  have hstart' : start <:+ front' ++ [l] := by
    obtain ⟨tail, htail⟩ := hsuffix
    rw [← hstart, ← List.append_assoc] at htail
    exact ⟨tail, List.append_cancel_right htail⟩
  rcases List.suffix_concat_iff.mp hstart' with rfl | ⟨start, rfl, -⟩
  · rw [← hstart]
    exact List.suffix_refl front
  · obtain ⟨f, rest, rfl⟩ := List.exists_cons_of_ne_nil hne
    have hmem' : start ++ l :: f :: rest ∈ openers := by
      rw [← hstart] at hmem
      simpa using hmem
    obtain ⟨hquote, hspace, hequals⟩ := opener_neighbours hmem'
    have hhead : value.head? = some f := by
      obtain ⟨tail, rfl⟩ := hfront
      rfl
    rcases hl with hl | hl | ⟨hl, hf⟩
    · exact absurd (hl.symm.trans hquote) (by decide)
    · exact absurd (hl.symm.trans hspace) (by decide)
    · exact absurd ((hf f hhead).symm.trans (hequals hl)) (by decide)

theorem not_mount_append {rest behind : List Char} (hnot : ¬['m', '/'] <+: rest)
    (hbehind : ∃ d tail, behind = d :: tail ∧ d ≠ 'm' ∧ d ≠ '/') : ¬['m', '/'] <+: rest ++ behind := by
  obtain ⟨d, tail, rfl, hm, hslash⟩ := hbehind
  intro h
  match rest, hnot, h with
  | [], _, h =>
      rw [List.nil_append] at h
      exact hm (List.cons_prefix_cons.mp h).1.symm
  | [c], _, h =>
      rw [List.singleton_append] at h
      exact hslash (List.cons_prefix_cons.mp (List.cons_prefix_cons.mp h).2).1.symm
  | c :: c' :: rest, hnot, h =>
      rw [List.cons_append, List.cons_append, List.cons_prefix_cons, List.cons_prefix_cons] at h
      exact hnot (by simpa using ⟨h.1, h.2.1⟩)

theorem changed_iff {attr before value behind : List Char} {slash : List Char → List Char}
    (hslash : ∀ opener, 1 < (slash opener).length) (h : IsValue attr before value behind)
    (hforeign : ¬RootRelative value) :
    replaceSlashes slash before value behind ≠ value ↔ BeginsProtocolRelative before value ∨ ContainsAsset value := by
  have hbehind := (around_value h).2
  rw [Ne, replaceSlashes_eq_self_iff hslash]
  constructor
  · intro hchanged
    push Not at hchanged
    obtain ⟨front, c, rest, rfl, hsome⟩ := hchanged
    obtain ⟨opener, hopener⟩ := Option.ne_none_iff_exists'.mp hsome
    obtain ⟨hmem, hsuffix, hbegins, hnot⟩ := assetSlash_eq_some.mp hopener
    obtain rfl : '/' = c := (List.cons_prefix_cons.mp hbegins).1
    by_cases hfront : front = []
    · left
      subst hfront
      refine ⟨⟨opener, hmem, by simpa using hsuffix⟩, ?_⟩
      by_contra htwo
      refine hforeign ⟨by simp, htwo, fun hm => hnot ?_⟩
      exact hm.trans (List.prefix_append _ _)
    · right
      obtain ⟨front', hfront'⟩ := opener_in_value h (List.prefix_append front _) hfront hmem hsuffix
      refine ⟨front', opener, hmem, rest, by rw [hfront'], fun hm => hnot ?_⟩
      rw [List.cons_append]
      exact (List.prefix_cons_inj '/').mpr (hm.trans (List.prefix_append _ _))
  · rintro (⟨⟨opener, hmem, hsuffix⟩, hbegins⟩ | ⟨front, opener, hmem, rest, rfl, hnot⟩) hnone
    · obtain ⟨rest, rfl⟩ := hbegins
      have hsome : assetSlash (before ++ []) ('/' :: ('/' :: rest) ++ behind) = some opener :=
        assetSlash_eq_some.mpr ⟨hmem, by simpa using hsuffix, by simp, by simp⟩
      rw [hnone [] '/' ('/' :: rest) rfl] at hsome
      cases hsome
    · have hsome : assetSlash (before ++ (front ++ opener)) ('/' :: rest ++ behind) = some opener := by
        refine assetSlash_eq_some.mpr ⟨hmem, ?_, by simp, ?_⟩
        · rw [← List.append_assoc]
          exact List.suffix_append _ opener
        · rw [List.cons_append, List.prefix_cons_inj]
          exact not_mount_append hnot hbehind
      rw [hnone (front ++ opener) '/' rest rfl] at hsome
      cases hsome

theorem length_slashText (items : List ReTemplate.Item) (opener : List Char) :
    1 < (slashText items opener).length := by
  simp [slashText]

/-- Rewriting for a code changes root-relative values only, exactly when no other value begins with two slashes right
behind an opener or contains an asset path. -/
theorem onlyRootRelative_iff (html code : String) :
    OnlyRootRelative groupNumber html code ↔ NothingForeign groupNumber html code := by
  unfold OnlyRootRelative NothingForeign
  refine forall_congr' fun items => forall_congr' fun _ => forall_congr' fun attr => forall_congr' fun _ =>
    forall_congr' fun before => forall_congr' fun value => forall_congr' fun behind => forall_congr' fun _ =>
    forall_congr' fun hvalue => ?_
  rw [← not_or, ← not_imp_not]
  refine forall_congr' fun hforeign => ?_
  rw [← changed_iff (length_slashText items) hvalue hforeign]

/-- The value of a protocol-relative image is changed. -/
theorem not_onlyRootRelative_image :
    ¬OnlyRootRelative (fun _ => none) "<img src=\"//cdn/x\">" "t7F5Twps" := by
  intro h
  have hcode : codeTemplate (fun _ => none) "t7F5Twps" = .ok ("t7F5Twps/".toList.map .char) :=
    ReTemplate.parseTemplate_literal (IsGeneratedCode.literal ⟨by decide, by decide⟩) (by decide)
  have hvalue : IsValue "src".toList "<img src=\"".toList "//cdn/x".toList "\">".toList :=
    .quoted ⟨false, "img".toList⟩ '"' "<img src=".toList _ ">".toList (by decide) rfl rfl (by decide)
  have hroot := h _ hcode "src".toList (by decide) _ _ _ (by decide) hvalue (by decide)
  exact hroot.2.1 (by decide)

end NetworkFileServer.Relay
