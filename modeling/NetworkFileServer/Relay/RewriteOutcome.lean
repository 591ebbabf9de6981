import NetworkFileServer.Relay.AttributeValues

/-!
# When rewriting degrades

`rewrite_html_body` promises never to crash. It catches what decoding raises where that is a `UnicodeDecodeError` or
a `LookupError`; the template and the encoding are outside of its `try`, and the template interprets backslashes.
-/

namespace NetworkFileServer.Relay

open NetworkFileServer.Tunnel (Bytes utf8Encode utf8Decode utf8Decode_utf8Encode)

variable (groupNumber : List Char → Option Nat) (codecs : Codecs)

/-- Rewriting returns the body, or the body with the literal prefix inserted. -/
def NeverBreaks (body : Bytes) (contentType code : String) : Prop :=
  ∃ result, rewriteHtmlBody groupNumber codecs body contentType ("/m/" ++ code) = .ok result ∧
    (result = body ∨ ∃ text, codecs.decode (charsetFromContentType contentType) body = .ok text ∧
      codecs.encode (charsetFromContentType contentType) (insertPrefix ("/m/" ++ code) text) = .ok result)

/-- No asset path is in the text. -/
def NoAsset (text : String) : Prop :=
  ∀ before c behind, text.toList = before ++ c :: behind → assetSlash before (c :: behind) = none

/-- The code stands for itself in a template, or it is accepted and there is nothing to replace. -/
def CodeHarmless (text code : String) : Prop :=
  ReTemplate.Literal code.toList ∨ (∃ items, codeTemplate groupNumber code = .ok items) ∧ NoAsset text

/-- The body is over the cap, or decoding it fails in one of the two ways that are caught, or it decodes, the code
does no harm and the result can be encoded. -/
def Survives (body : Bytes) (contentType code : String) : Prop :=
  htmlRewriteMaxBytes < body.length ∨
    (∃ e, codecs.decode (charsetFromContentType contentType) body = .error e ∧ e.isCaught = true) ∨
    ∃ text, codecs.decode (charsetFromContentType contentType) body = .ok text ∧
      CodeHarmless groupNumber text code ∧
      ∃ result, codecs.encode (charsetFromContentType contentType) (insertPrefix ("/m/" ++ code) text) = .ok result

/-- What a charset encodes, it decodes to the same text. -/
def RoundTrips (charset : String) : Prop :=
  ∀ text bytes, codecs.encode charset text = .ok bytes → codecs.decode charset bytes = .ok text

theorem replaceAssets_eq_self_iff {slash : List Char → List Char} (hslash : ∀ opener, 1 < (slash opener).length)
    (text : String) : replaceAssets slash text = text ↔ NoAsset text := by
  have hsame : replaceAssets slash text = text ↔ replaceSlashes slash [] text.toList [] = text.toList := by
    rw [replaceAssets, ← String.toList_inj, String.toList_ofList]
  rw [hsame, replaceSlashes_eq_self_iff hslash]
  simp [NoAsset]

theorem insertPrefix_eq_self_iff (code text : String) :
    insertPrefix ("/m/" ++ code) text = text ↔ NoAsset text :=
  replaceAssets_eq_self_iff (by simp) text

theorem replaceSlashes_first {text before : List Char}
    (h : ¬∀ front c rest, text = front ++ c :: rest → assetSlash (before ++ front) (c :: rest) = none) :
    ∃ front opener rest, opener ∈ openers ∧ ∀ slash : List Char → List Char,
      replaceSlashes slash before text [] = front ++ slash opener ++ replaceSlashes slash
        (before ++ front ++ ['/']) rest [] := by
  induction text generalizing before with
  | nil =>
      refine absurd ?_ h
      intro front c rest htext
      simp at htext
  | cons c text ih =>
      cases hasset : assetSlash before (c :: text ++ []) with
      | some opener =>
          obtain ⟨hmem, -, hslash, -⟩ := assetSlash_eq_some.mp hasset
          obtain rfl : '/' = c := (List.cons_prefix_cons.mp hslash).1
          refine ⟨[], opener, text, hmem, fun slash => ?_⟩
          rw [replaceSlashes_replaced hasset]
          simp
      | none =>
          have hrest : ¬∀ front d rest, text = front ++ d :: rest →
              assetSlash (before ++ [c] ++ front) (d :: rest) = none := by
            intro hall
            refine h ?_
            intro front d rest htext
            cases front with
            | nil =>
                obtain ⟨rfl, rfl⟩ := List.cons.inj htext
                simpa using hasset
            | cons e front =>
                obtain ⟨rfl, htext'⟩ := List.cons.inj htext
                simpa using hall front d rest htext'
          obtain ⟨front, opener, rest, hmem, hout⟩ := ih hrest
          refine ⟨c :: front, opener, rest, hmem, fun slash => ?_⟩
          rw [replaceSlashes_kept hasset, hout slash]
          simp

theorem matchGroup_head {opener : List Char} (h : opener ∈ openers) (index : Nat) :
    ∃ c rest, matchGroup opener index = c :: rest ∧ ReTemplate.isNumeric c = false := by
  have hhead : ∀ opener ∈ openers, (opener.head?.any fun c => !ReTemplate.isNumeric c) = true := by decide
  obtain ⟨c, hc, hnot⟩ := (Option.any_eq_true _ _).mp (hhead opener h)
  have hnumeric : ReTemplate.isNumeric c = false := by simpa using hnot
  obtain ⟨rest, rfl⟩ := List.head?_eq_some_iff.mp hc
  cases index with
  | zero => exact ⟨c, rest ++ ['/'], rfl, hnumeric⟩
  | succ index => exact ⟨c, rest, rfl, hnumeric⟩

theorem replaceAssets_ne_insertPrefix {text code : String} {items : List ReTemplate.Item}
    (hliteral : ¬ReTemplate.Literal code.toList) (hitems : codeTemplate groupNumber code = .ok items)
    (hasset : ¬NoAsset text) : replaceAssets (slashText items) text ≠ insertPrefix ("/m/" ++ code) text := by
  intro heq
  have hfirst : ¬∀ front c rest, text.toList = front ++ c :: rest → assetSlash ([] ++ front) (c :: rest) = none :=
    hasset
  obtain ⟨front, opener, rest, hmem, hout⟩ := replaceSlashes_first hfirst
  have hlists := congrArg String.toList heq
  rw [insertPrefix, replaceAssets, replaceAssets, String.toList_ofList, String.toList_ofList, hout, hout] at hlists
  simp only [slashText, String.toList_append, List.append_assoc, List.append_cancel_left_eq] at hlists
  exact ReTemplate.expand_ne_of_not_literal hliteral (by decide) hitems
    (fun index _ => matchGroup_head hmem index) _ _ (by rw [hlists, List.append_assoc])

theorem codeHarmless_accepted {text code : String} (h : CodeHarmless groupNumber text code) :
    rewriteHtmlAssetPaths groupNumber text ("/m/" ++ code) = .ok (insertPrefix ("/m/" ++ code) text) := by
  rcases h with hliteral | ⟨⟨items, hitems⟩, hasset⟩
  · exact rewriteHtmlAssetPaths_literal groupNumber text code hliteral
  · rw [rewriteHtmlAssetPaths_eq, hitems, (insertPrefix_eq_self_iff code text).mpr hasset]
    exact congrArg Except.ok ((replaceAssets_eq_self_iff (length_slashText items) text).mpr hasset)

variable {groupNumber codecs}

theorem neverBreaks_of_survives {body : Bytes} {contentType code : String}
    (h : Survives groupNumber codecs body contentType code) :
    NeverBreaks groupNumber codecs body contentType code := by
  unfold NeverBreaks rewriteHtmlBody
  by_cases hsize : htmlRewriteMaxBytes < body.length
  · rw [if_pos hsize]
    exact ⟨body, rfl, .inl rfl⟩
  rw [if_neg hsize]
  rcases h with hover | ⟨e, hdecode, hcaught⟩ | ⟨text, hdecode, hharmless, result, hencode⟩
  · exact absurd hover hsize
  · exact ⟨body, by simp [hdecode, hcaught], .inl rfl⟩
  · refine ⟨result, ?_, .inr ⟨text, hdecode, hencode⟩⟩
    simp only [hdecode, codeHarmless_accepted groupNumber hharmless, hencode]
    rfl

theorem survives_of_neverBreaks {body : Bytes} {contentType code : String}
    (hround : RoundTrips codecs (charsetFromContentType contentType))
    (h : NeverBreaks groupNumber codecs body contentType code) :
    Survives groupNumber codecs body contentType code := by
  obtain ⟨result, hresult, hbody⟩ := h
  unfold rewriteHtmlBody at hresult
  by_cases hsize : htmlRewriteMaxBytes < body.length
  · exact .inl hsize
  rw [if_neg hsize] at hresult
  cases hdecode : codecs.decode (charsetFromContentType contentType) body with
  | error e =>
      simp only [hdecode] at hresult
      by_cases hcaught : e.isCaught = true
      · exact .inr (.inl ⟨e, hdecode, hcaught⟩)
      · simp [hcaught] at hresult
  | ok text =>
      simp only [hdecode, rewriteHtmlAssetPaths_eq] at hresult
      cases hitems : codeTemplate groupNumber code with
      | error e => simp [hitems, Except.map] at hresult
      | ok items =>
          simp only [hitems, Except.map] at hresult
          have hencode : codecs.encode (charsetFromContentType contentType) (replaceAssets (slashText items) text) =
              .ok result := by
            cases hcodec : codecs.encode (charsetFromContentType contentType)
                (replaceAssets (slashText items) text) with
            | error e => simp [hcodec, Except.mapError] at hresult
            | ok bytes =>
                rw [hcodec] at hresult
                exact congrArg Except.ok (Except.ok.inj hresult)
          have hback := hround _ _ hencode
          have hsame : replaceAssets (slashText items) text = insertPrefix ("/m/" ++ code) text := by
            rcases hbody with rfl | ⟨text', hdecode', hencode'⟩
            · -- the body came back, so there was nothing to replace
              rw [hdecode] at hback
              have hself := Except.ok.inj hback
              have hasset := (replaceAssets_eq_self_iff (length_slashText items) text).mp hself.symm
              rw [← hself, (insertPrefix_eq_self_iff code text).mpr hasset]
            · obtain rfl : text = text' := Except.ok.inj (hdecode.symm.trans hdecode')
              exact Except.ok.inj (hback.symm.trans (hround _ _ hencode'))
          have hharmless : CodeHarmless groupNumber text code := by
            by_cases hliteral : ReTemplate.Literal code.toList
            · exact .inl hliteral
            · right
              refine ⟨⟨items, hitems⟩, ?_⟩
              by_contra hasset
              exact replaceAssets_ne_insertPrefix groupNumber hliteral hitems hasset hsame
          exact .inr (.inr ⟨text, hdecode, hharmless, result, hsame ▸ hencode⟩)

variable (groupNumber codecs)

/-- Codecs that know UTF-8 and no other charset. -/
def utf8Codecs : Codecs where
  decode charset body :=
    if charset = "utf-8" then
      match utf8Decode body with
      | some text => .ok text
      | none => .error .unicodeDecodeError
    else .error .lookupError
  encode charset text := if charset = "utf-8" then .ok (utf8Encode text) else .error .lookupError

theorem utf8Codecs_decode (text : String) : utf8Codecs.decode "utf-8" (utf8Encode text) = .ok text := by
  simp [utf8Codecs, utf8Decode_utf8Encode]

end NetworkFileServer.Relay
