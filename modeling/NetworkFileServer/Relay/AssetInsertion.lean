import NetworkFileServer.Relay.HtmlRewriter

/-!
# Rewriting as insertion

The scan of the pattern reads a text from left to right and takes whole matches. Here a text is read one character
at a time with what stands before and behind it, and the slash of each asset path is replaced; the two agree. For
the prefix of a generated code the replacement is an insertion, which finds nothing to do in its own result.
-/

namespace NetworkFileServer.Relay

/-- The opener that a text ends with. -/
def openerBefore (before : List Char) : Option (List Char) := openers.find? (·.isSuffixOf before)

/-- The opener of an asset path whose slash is at the head of `text`, behind `before`. -/
def assetSlash (before text : List Char) : Option (List Char) :=
  if ['/'].isPrefixOf text && !(['/', 'm', '/'].isPrefixOf text) then openerBefore before else none

/-- A part of a text with `slash opener` for the slash of each asset path in it. -/
def replaceSlashes (slash : List Char → List Char) : (before part behind : List Char) → List Char
  | _, [], _ => []
  | before, c :: cs, behind =>
      (match assetSlash before (c :: cs ++ behind) with
        | some opener => slash opener
        | none => [c]) ++ replaceSlashes slash (before ++ [c]) cs behind

theorem opener_eq_of_suffix {opener opener' : List Char} (h : opener ∈ openers) (h' : opener' ∈ openers)
    (hsuffix : opener <:+ opener') : opener = opener' := by
  have hall : ∀ a ∈ openers, ∀ b ∈ openers, a <:+ b → a = b := by decide
  exact hall opener h opener' h' hsuffix

theorem slash_not_mem_opener {opener : List Char} (h : opener ∈ openers) : '/' ∉ opener := by
  revert opener
  decide

theorem opener_ne_nil {opener : List Char} (h : opener ∈ openers) : opener ≠ [] := by
  revert opener
  decide

theorem openerBefore_eq_some {before opener : List Char} :
    openerBefore before = some opener ↔ opener ∈ openers ∧ opener <:+ before := by
  constructor
  · intro h
    exact ⟨List.mem_of_find?_eq_some h, List.isSuffixOf_iff_suffix.mp (List.find?_eq_some_iff_append.mp h).1⟩
  · rintro ⟨hmem, hsuffix⟩
    cases hfind : openerBefore before with
    | none =>
        have hnone := List.find?_eq_none.mp hfind opener hmem
        exact absurd (List.isSuffixOf_iff_suffix.mpr hsuffix) hnone
    | some opener' =>
        have hmem' := List.mem_of_find?_eq_some hfind
        have hsuffix' : opener' <:+ before := 
          List.isSuffixOf_iff_suffix.mp (List.find?_eq_some_iff_append.mp hfind).1
        rcases List.suffix_or_suffix_of_suffix hsuffix hsuffix' with h | h
        · rw [opener_eq_of_suffix hmem hmem' h]
        · rw [opener_eq_of_suffix hmem' hmem h]

theorem assetSlash_eq_some {before text opener : List Char} :
    assetSlash before text = some opener ↔
      opener ∈ openers ∧ opener <:+ before ∧ ['/'] <+: text ∧ ¬['/', 'm', '/'] <+: text := by
  unfold assetSlash
  split
  · rename_i h
    simp only [Bool.and_eq_true, List.isPrefixOf_iff_prefix, Bool.not_eq_true', ← Bool.not_eq_true] at h
    rw [openerBefore_eq_some]
    tauto
  · rename_i h
    simp only [Bool.and_eq_true, List.isPrefixOf_iff_prefix, Bool.not_eq_true', ← Bool.not_eq_true] at h
    simp only [reduceCtorEq, false_iff]
    tauto

theorem assetSlash_eq_none {before text : List Char} :
    assetSlash before text = none ↔
      ∀ opener ∈ openers, opener <:+ before → ['/'] <+: text → ['/', 'm', '/'] <+: text := by
  rw [Option.eq_none_iff_forall_ne_some]
  constructor
  · intro h opener hmem hsuffix hslash
    by_contra hnot
    exact h opener (assetSlash_eq_some.mpr ⟨hmem, hsuffix, hslash, hnot⟩)
  · intro h opener hsome
    obtain ⟨hmem, hsuffix, hslash, hnot⟩ := assetSlash_eq_some.mp hsome
    exact hnot (h opener hmem hsuffix hslash)

theorem matchAsset_eq_some {text opener : List Char} (h : matchAsset text = some opener) :
    opener ∈ openers ∧ opener ++ ['/'] <+: text ∧ ¬opener ++ ['/', 'm', '/'] <+: text := by
  have hmem := List.mem_of_find?_eq_some h
  have hfound := List.find?_some h
  simp only [Bool.and_eq_true, List.isPrefixOf_iff_prefix, Bool.not_eq_true', ← Bool.not_eq_true] at hfound
  exact ⟨hmem, hfound⟩

theorem matchAsset_eq_none {text : List Char} (h : matchAsset text = none) (opener : List Char)
    (hmem : opener ∈ openers) (hbegins : opener ++ ['/'] <+: text) : opener ++ ['/', 'm', '/'] <+: text := by
  have hnot := List.find?_eq_none.mp h opener hmem
  simp only [Bool.and_eq_true, List.isPrefixOf_iff_prefix, Bool.not_eq_true', ← Bool.not_eq_true] at hnot
  by_contra hm
  exact hnot ⟨hbegins, hm⟩

section

variable {slash : List Char → List Char}

theorem replaceSlashes_append (before part part' behind : List Char) :
    replaceSlashes slash before (part ++ part') behind =
      replaceSlashes slash before part (part' ++ behind) ++ replaceSlashes slash (before ++ part) part' behind := by
  induction part generalizing before with
  | nil => simp [replaceSlashes]
  | cons c part ih =>
      rw [List.cons_append, replaceSlashes, replaceSlashes, ih (before ++ [c])]
      simp

theorem replaceSlashes_kept {before part behind : List Char} {c : Char}
    (h : assetSlash before (c :: part ++ behind) = none) :
    replaceSlashes slash before (c :: part) behind = c :: replaceSlashes slash (before ++ [c]) part behind := by
  rw [replaceSlashes, h]
  rfl

theorem replaceSlashes_replaced {before part behind opener : List Char} {c : Char}
    (h : assetSlash before (c :: part ++ behind) = some opener) :
    replaceSlashes slash before (c :: part) behind =
      slash opener ++ replaceSlashes slash (before ++ [c]) part behind := by
  rw [replaceSlashes, h]

theorem replaceSlashes_of_no_slash (before part behind : List Char) (h : '/' ∉ part) :
    replaceSlashes slash before part behind = part := by
  induction part generalizing before with
  | nil => rfl
  | cons c part ih =>
      have hnone : assetSlash before (c :: part ++ behind) = none := by
        rw [assetSlash_eq_none]
        intro opener _ _ hslash
        have hc := (List.cons_prefix_cons.mp hslash).1
        exact absurd (hc ▸ List.mem_cons_self) h
      rw [replaceSlashes_kept hnone, ih (before ++ [c]) (fun hmem => h (List.mem_cons_of_mem c hmem))]

/-- Group 1 of a match stays, and its slash is replaced. -/
def aroundSlash (slash : List Char → List Char) (opener : List Char) : List Char := opener ++ slash opener

/-- No match that began in `before` has its slash in `text`. -/
def NonePending (before text : List Char) : Prop :=
  ∀ opener ∈ openers, ∀ start rest, start ++ rest = opener → start ≠ [] → start <:+ before →
    rest ++ ['/'] <+: text → rest ++ ['/', 'm', '/'] <+: text

theorem NonePending.step {before text : List Char} {c : Char} (h : NonePending before (c :: text))
    (hmatch : matchAsset (c :: text) = none) : NonePending (before ++ [c]) text := by
  intro opener hmem start rest hopener hne hsuffix hbegins
  obtain ⟨start, rfl, hbefore⟩ := (List.suffix_concat_iff.mp hsuffix).resolve_left hne
  by_cases hstart : start = []
  · -- the match would begin at `c`
    subst hstart
    have hopener' : opener = c :: rest := hopener.symm
    have hcons := matchAsset_eq_none hmatch opener hmem (by
      rw [hopener']
      exact (List.prefix_cons_inj c).mpr hbegins)
    rw [hopener'] at hcons
    exact (List.prefix_cons_inj c).mp hcons
  · have hcons := h opener hmem start (c :: rest) (by simpa using hopener) hstart hbefore
      ((List.prefix_cons_inj c).mpr hbegins)
    exact (List.prefix_cons_inj c).mp hcons

theorem nonePending_nil (text : List Char) : NonePending [] text := by
  intro opener _ start rest _ hne hsuffix
  exact absurd (List.suffix_nil.mp hsuffix) hne

theorem nonePending_behind_slash (before text : List Char) : NonePending (before ++ ['/']) text := by
  intro opener hmem start rest hopener hne hsuffix
  obtain ⟨start, rfl, -⟩ := (List.suffix_concat_iff.mp hsuffix).resolve_left hne
  have hslash : '/' ∈ opener := by simp [← hopener]
  exact absurd hslash (slash_not_mem_opener hmem)

theorem subScan_drop (replacement : List Char → List Char) (skip : Nat) (text : List Char) :
    subScan replacement skip text = subScan replacement 0 (text.drop skip) := by
  induction text generalizing skip with
  | nil => cases skip <;> rfl
  | cons c text ih =>
      cases skip with
      | zero => rfl
      | succ skip => exact ih skip

theorem subScan_eq_replaceSlashes (before text : List Char) (h : NonePending before text) :
    subScan (aroundSlash slash) 0 text = replaceSlashes slash before text [] := by
  induction hlen : text.length using Nat.strong_induction_on generalizing before text with
  | _ n ih =>
      subst hlen
      cases text with
      | nil => rfl
      | cons c text =>
          rw [subScan]
          cases hmatch : matchAsset (c :: text) with
          | none =>
              have hnone : assetSlash before (c :: text ++ []) = none := by
                rw [assetSlash_eq_none, List.append_nil]
                intro opener hmem hsuffix hslash
                exact h opener hmem opener [] (by simp) (opener_ne_nil hmem) hsuffix hslash
              rw [replaceSlashes_kept hnone, ← ih text.length (by simp) (before ++ [c]) text (h.step hmatch) rfl]
          | some opener =>
              obtain ⟨hmem, ⟨rest, htext⟩, hnot⟩ := matchAsset_eq_some hmatch
              have hrest : text.drop opener.length = rest := by
                have hdrop := congrArg (List.drop (opener.length + 1)) htext
                simpa using hdrop.symm
              have hlen : rest.length < (c :: text).length := by
                rw [← htext, List.length_append, List.length_append]
                simp only [List.length_singleton]
                omega
              have hasset : assetSlash (before ++ opener) ('/' :: rest ++ []) = some opener := by
                refine assetSlash_eq_some.mpr ⟨hmem, List.suffix_append before opener, by simp, ?_⟩
                intro hm
                refine hnot ?_
                rw [← htext, List.append_assoc, List.prefix_append_right_inj]
                simpa using hm
              have hbehind := ih rest.length hlen (before ++ opener ++ ['/']) rest
                (nonePending_behind_slash (before ++ opener) rest) rfl
              change aroundSlash slash opener ++ subScan (aroundSlash slash) opener.length text = _
              have hcut : c :: text = opener ++ '/' :: rest := by rw [← htext, List.append_assoc, List.singleton_append]
              rw [subScan_drop, hrest, hbehind, hcut, replaceSlashes_append,
                replaceSlashes_of_no_slash before opener _ (slash_not_mem_opener hmem),
                replaceSlashes_replaced hasset, aroundSlash, List.append_assoc]

end

/-- What a template stands for in place of the slash of an asset path. -/
def slashText (items : List ReTemplate.Item) (opener : List Char) : List Char :=
  "/m/".toList ++ ReTemplate.expand (matchGroup opener) items

variable (groupNumber : List Char → Option Nat)

/-- The template of a mount code, behind the reference to group 1 and `/m/`. -/
def codeTemplate (code : String) : Except ReTemplate.Error (List ReTemplate.Item) :=
  ReTemplate.parseTemplate groupNumber 1 (code.toList ++ ['/'])

theorem parse_assetTemplate (code : String) :
    ReTemplate.parseTemplate groupNumber 1 (assetTemplate ("/m/" ++ code)) =
      (codeTemplate groupNumber code).map fun items =>
        .group 1 :: .char '/' :: .char 'm' :: .char '/' :: items := by
  have htext : assetTemplate ("/m/" ++ code) = '\\' :: '1' :: '/' :: 'm' :: '/' :: (code.toList ++ ['/']) := by
    simp [assetTemplate]
  rw [htext, ReTemplate.parseTemplate_group _ (by decide) (by decide) (by decide) (by decide) (by decide),
    ReTemplate.parseTemplate_cons _ (by decide), ReTemplate.parseTemplate_cons _ (by decide),
    ReTemplate.parseTemplate_cons _ (by decide)]
  change _ = (ReTemplate.parseTemplate groupNumber 1 (code.toList ++ ['/'])).map _
  cases ReTemplate.parseTemplate groupNumber 1 (code.toList ++ ['/']) <;> rfl

/-- A text with the slashes of its asset paths replaced. -/
def replaceAssets (slash : List Char → List Char) (html : String) : String :=
  String.ofList (replaceSlashes slash [] html.toList [])

theorem rewriteHtmlAssetPaths_eq (html code : String) :
    rewriteHtmlAssetPaths groupNumber html ("/m/" ++ code) =
      (codeTemplate groupNumber code).map fun items => replaceAssets (slashText items) html := by
  unfold rewriteHtmlAssetPaths
  rw [parse_assetTemplate]
  cases codeTemplate groupNumber code with
  | error e => rfl
  | ok items =>
      change Except.ok (String.ofList (subScan (aroundSlash (slashText items)) 0 html.toList)) = _
      rw [subScan_eq_replaceSlashes [] html.toList (nonePending_nil _)]
      rfl

/-- The literal insertion of a mount prefix before the slash of each asset path. -/
def insertPrefix (mountPrefix : String) : String → String := replaceAssets fun _ => mountPrefix.toList ++ ['/']

theorem rewriteHtmlAssetPaths_literal (html code : String) (h : ReTemplate.Literal code.toList) :
    rewriteHtmlAssetPaths groupNumber html ("/m/" ++ code) = .ok (insertPrefix ("/m/" ++ code) html) := by
  rw [rewriteHtmlAssetPaths_eq, codeTemplate, ReTemplate.parseTemplate_literal h (by decide)]
  have hslash : slashText ((code.toList ++ ['/']).map .char) = fun _ => ("/m/" ++ code).toList ++ ['/'] := by
    funext opener
    rw [slashText, ReTemplate.expand_chars]
    simp
  change Except.ok (replaceAssets (slashText _) html) = _
  rw [hslash]
  rfl

/-- Two texts end alike, up to their last slash. -/
def SameTail (a b : List Char) : Prop := ∀ w, '/' ∉ w → (w <:+ a ↔ w <:+ b)

theorem SameTail.concat {a b : List Char} (h : SameTail a b) (c : Char) : SameTail (a ++ [c]) (b ++ [c]) := by
  intro w hw
  rw [List.suffix_concat_iff, List.suffix_concat_iff]
  refine or_congr_right (exists_congr fun t => and_congr_right ?_)
  rintro rfl
  exact h t (by simpa using fun hmem => hw (by simp [hmem]))

theorem sameTail_slash (a b : List Char) : SameTail (a ++ ['/']) (b ++ ['/']) := by
  have hnone : ∀ (a w : List Char), '/' ∉ w → w <:+ a ++ ['/'] → w = [] := by
    intro a w hw hsuffix
    rcases List.suffix_concat_iff.mp hsuffix with h | ⟨t, rfl, -⟩
    · exact h
    · simp at hw
  intro w hw
  constructor
  · intro h
    rw [hnone a w hw h]
    exact List.nil_suffix
  · intro h
    rw [hnone b w hw h]
    exact List.nil_suffix

theorem assetSlash_behind {d : Char} (before text : List Char) (hd : d ≠ '"' ∧ d ≠ '\'') :
    assetSlash (before ++ [d]) text = none := by
  have hlast : ∀ opener ∈ openers, opener.getLast? = some '"' ∨ opener.getLast? = some '\'' := by decide
  rw [assetSlash_eq_none]
  intro opener hmem hsuffix
  obtain ⟨start, hstart⟩ := hsuffix
  have hget := congrArg List.getLast? hstart
  rw [List.getLast?_append, List.getLast?_concat] at hget
  rcases hlast opener hmem with h | h
  · rw [h] at hget
    exact absurd (Option.some.inj hget).symm hd.1
  · rw [h] at hget
    exact absurd (Option.some.inj hget).symm hd.2

/-- The characters of the alphabet of URL-safe base64. -/
def isUrlSafe (c : Char) : Bool := c.isAlphanum || c = '-' || c = '_'

/-- A code that `generate_mount_code` can return. -/
def IsGeneratedCode (code : String) : Prop := code ≠ "" ∧ code.toList.all isUrlSafe = true

theorem IsGeneratedCode.spec {code : String} (h : IsGeneratedCode code) :
    ∃ front last, code.toList = front ++ [last] ∧ last ≠ '"' ∧ last ≠ '\'' ∧ '/' ∉ code.toList ∧
      '\\' ∉ code.toList := by
  obtain ⟨hne, hsafe⟩ := h
  rw [List.all_eq_true] at hsafe
  have hlist : code.toList ≠ [] := by simpa using hne
  have hnot : ∀ c, isUrlSafe c = false → c ∉ code.toList := by
    intro c hc hmem
    rw [hsafe c hmem] at hc
    cases hc
  have hlast := List.getLast_mem hlist
  refine ⟨code.toList.dropLast, code.toList.getLast hlist, (List.dropLast_append_getLast hlist).symm, ?_, ?_,
    hnot '/' (by decide), hnot '\\' (by decide)⟩
  · intro h
    exact hnot '"' (by decide) (h ▸ hlast)
  · intro h
    exact hnot '\'' (by decide) (h ▸ hlast)

theorem IsGeneratedCode.literal {code : String} (h : IsGeneratedCode code) : ReTemplate.Literal code.toList := by
  obtain ⟨-, -, -, -, -, -, hslash⟩ := h.spec
  intro c hc
  exact absurd (hc.subset (by simp)) hslash

section

variable {slash : List Char → List Char}

theorem replaceSlashes_mountCode {code : String} (hcode : IsGeneratedCode code) (before behind : List Char) :
    replaceSlashes slash before (("/m/" ++ code).toList ++ ['/']) behind = ("/m/" ++ code).toList ++ ['/'] := by
  obtain ⟨front, last, hcut, hquote, hquote', hslash, -⟩ := hcode.spec
  have hfirst : assetSlash before ('/' :: 'm' :: '/' :: (code.toList ++ ['/']) ++ behind) = none := by
    rw [assetSlash_eq_none]
    intro opener _ _ _
    simp
  have hsecond : assetSlash (before ++ ['/']) ('m' :: '/' :: (code.toList ++ ['/']) ++ behind) = none :=
    assetSlash_behind _ _ (by decide)
  have hthird : assetSlash (before ++ ['/'] ++ ['m']) ('/' :: (code.toList ++ ['/']) ++ behind) = none :=
    assetSlash_behind _ _ (by decide)
  have hlast : assetSlash (before ++ ['/'] ++ ['m'] ++ ['/'] ++ code.toList) (['/'] ++ behind) = none := by
    rw [hcut, ← List.append_assoc]
    exact assetSlash_behind _ _ ⟨hquote, hquote'⟩
  have htext : ("/m/" ++ code).toList ++ ['/'] = '/' :: 'm' :: '/' :: (code.toList ++ ['/']) := by simp
  rw [htext, replaceSlashes_kept hfirst, replaceSlashes_kept hsecond, replaceSlashes_kept hthird,
    replaceSlashes_append, replaceSlashes_of_no_slash _ _ _ hslash, replaceSlashes_kept hlast, replaceSlashes]

theorem replaceSlashes_mount (before part behind : List Char) :
    replaceSlashes slash (before ++ ['/']) ('m' :: '/' :: part) behind =
      'm' :: '/' :: replaceSlashes slash (before ++ ['/'] ++ ['m'] ++ ['/']) part behind := by
  have hm : assetSlash (before ++ ['/']) ('m' :: '/' :: part ++ behind) = none := assetSlash_behind _ _ (by decide)
  have hslash : assetSlash (before ++ ['/'] ++ ['m']) ('/' :: part ++ behind) = none :=
    assetSlash_behind _ _ (by decide)
  rw [replaceSlashes_kept hm, replaceSlashes_kept hslash]

/-- An insertion leaves nothing to replace: no asset path is completed by it, and each one that was there is
followed by `m/` now. -/
theorem replaceSlashes_replaceSlashes {ins : List Char}
    (hins : ∀ before behind, replaceSlashes slash before (ins ++ ['/']) behind = ins ++ ['/'])
    (before out part : List Char) (h : SameTail before out) :
    replaceSlashes slash out (replaceSlashes (fun _ => ins ++ ['/']) before part []) [] =
      replaceSlashes (fun _ => ins ++ ['/']) before part [] := by
  induction part generalizing before out with
  | nil => rfl
  | cons c part ih =>
      cases hasset : assetSlash before (c :: part ++ []) with
      | none =>
          rw [replaceSlashes_kept hasset]
          have hnone : assetSlash out
              (c :: replaceSlashes (fun _ => ins ++ ['/']) (before ++ [c]) part [] ++ []) = none := by
            rw [assetSlash_eq_none, List.append_nil] at hasset ⊢
            intro opener hmem hsuffix hslash
            have hbefore := (h opener (slash_not_mem_opener hmem)).mpr hsuffix
            obtain rfl : '/' = c := (List.cons_prefix_cons.mp hslash).1
            have hmount := hasset opener hmem hbefore (by simp)
            obtain ⟨rest, hrest⟩ := hmount
            obtain rfl : part = 'm' :: '/' :: rest := (List.cons.inj hrest).2.symm
            rw [replaceSlashes_mount]
            simp
          rw [replaceSlashes_kept hnone, ih (before ++ [c]) (out ++ [c]) (h.concat c)]
      | some opener =>
          obtain ⟨-, -, hslash, -⟩ := assetSlash_eq_some.mp hasset
          obtain rfl : '/' = c := (List.cons_prefix_cons.mp hslash).1
          have hnext := ih (before ++ ['/']) (out ++ (ins ++ ['/'])) (by
            rw [← List.append_assoc]
            exact sameTail_slash before (out ++ ins))
          rw [replaceSlashes_replaced hasset, replaceSlashes_append, hins, hnext]

end

theorem exists_pieces (ins before part behind : List Char) :
    ∃ piece pieces, (piece :: pieces).flatten = part ∧
      replaceSlashes (fun _ => ins ++ ['/']) before part behind = ins.intercalate (piece :: pieces) := by
  induction part generalizing before with
  | nil => exact ⟨[], [], rfl, rfl⟩
  | cons c part ih =>
      obtain ⟨piece, pieces, hflatten, hout⟩ := ih (before ++ [c])
      cases hasset : assetSlash before (c :: part ++ behind) with
      | none =>
          refine ⟨c :: piece, pieces, by rw [← hflatten]; rfl, ?_⟩
          rw [replaceSlashes_kept hasset, hout]
          cases pieces <;> simp [List.intercalate]
      | some opener =>
          obtain ⟨-, -, hslash, -⟩ := assetSlash_eq_some.mp hasset
          obtain rfl : '/' = c := (List.cons_prefix_cons.mp hslash).1
          refine ⟨[], ('/' :: piece) :: pieces, by rw [← hflatten]; rfl, ?_⟩
          rw [replaceSlashes_replaced hasset, hout]
          cases pieces <;> simp [List.intercalate]

/-- For the prefix of a generated code, rewriting is the literal insertion of the prefix before the slash of each
asset path, and does nothing to its own result with any such prefix. -/
theorem rewriteHtmlAssetPaths_inserts (html code : String) (hcode : IsGeneratedCode code) :
    ∃ out, rewriteHtmlAssetPaths groupNumber html ("/m/" ++ code) = .ok out ∧
      out.toList = replaceSlashes (fun _ => ("/m/" ++ code).toList ++ ['/']) [] html.toList [] ∧
      (∃ pieces, pieces.flatten = html.toList ∧ out.toList = ("/m/" ++ code).toList.intercalate pieces) ∧
      ∀ code', IsGeneratedCode code' → rewriteHtmlAssetPaths groupNumber out ("/m/" ++ code') = .ok out := by
  have hout : (insertPrefix ("/m/" ++ code) html).toList =
      replaceSlashes (fun _ => ("/m/" ++ code).toList ++ ['/']) [] html.toList [] := by
    simp [insertPrefix, replaceAssets]
  refine ⟨_, rewriteHtmlAssetPaths_literal groupNumber html code hcode.literal, hout, ?_, ?_⟩
  · obtain ⟨piece, pieces, hflatten, hpieces⟩ := exists_pieces ("/m/" ++ code).toList [] html.toList []
    exact ⟨piece :: pieces, hflatten, hout.trans hpieces⟩
  · intro code' hcode'
    have htail : SameTail [] [] := fun _ _ => Iff.rfl
    rw [rewriteHtmlAssetPaths_literal groupNumber _ code' hcode'.literal]
    unfold insertPrefix replaceAssets
    rw [String.toList_ofList, replaceSlashes_replaceSlashes (replaceSlashes_mountCode hcode) [] [] _ htail]

theorem rewriteHtmlAssetPaths_inserts_link :
    IsGeneratedCode "t7F5Twps" ∧
      ∃ out, rewriteHtmlAssetPaths (fun _ => none) "<a href=\"/f\">" "/m/t7F5Twps" = .ok out ∧
        rewriteHtmlAssetPaths (fun _ => none) out "/m/t7F5Twps" = .ok out := by
  have hcode : IsGeneratedCode "t7F5Twps" := ⟨by decide, by decide⟩
  obtain ⟨out, hout, -, -, hagain⟩ := rewriteHtmlAssetPaths_inserts (fun _ => none) "<a href=\"/f\">" "t7F5Twps" hcode
  exact ⟨hcode, out, hout, hagain _ hcode⟩

end NetworkFileServer.Relay
