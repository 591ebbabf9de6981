import NetworkFileServer.Server.ShareLinks

/-!
# The table of share links

What a call of the share service does to a token, as it shows at any later time. A token that is past its TTL is
never valid again, so it makes no difference which calls have swept it out.
-/

namespace NetworkFileServer.Server

/-- The link is within its TTL. -/
def ShareLinkRecord.Within {τ : Type*} (r : ShareLinkRecord τ) (now : ℚ) : Prop :=
  getTimestamp now - getTimestamp r.createdAt ≤ r.ttlSeconds

instance ShareLinkRecord.decidableWithin {τ : Type*} (r : ShareLinkRecord τ) (now : ℚ) : Decidable (r.Within now) :=
  inferInstanceAs (Decidable (_ ≤ _))

theorem ShareLinkRecord.Within.of_le {τ : Type*} {r : ShareLinkRecord τ} {t now : ℚ} (h : r.Within now)
    (hle : t ≤ now) :
    r.Within t := by
  have hmono := ShareHistory.getTimestamp_mono t now hle
  unfold Within at h ⊢
  omega

namespace ShareLinkService

variable {τ : Type*} [DecidableEq τ] {ser : ShareSerializer τ} {s : ShareLinkService τ} {clock : ℚ}

/-- The token is the key of a link for the path that is within its TTL. -/
def Valid (s : ShareLinkService τ) (now : ℚ) (token : τ) (path : String) : Prop :=
  ∃ r, s.activeLinks.get token = some r ∧ r.filePath = path ∧ r.Within now

/-- The dictionary and the table are the same, and each token is that of its entry. -/
structure LinkTable (ser : ShareSerializer τ) (clock : ℚ) (s : ShareLinkService τ) : Prop where
  times : ∀ token r, s.activeLinks.get token = some r → r.createdAt ≤ clock
  tokens : ∀ token r, s.activeLinks.get token = some r →
    token = ser.dumps (getTimestamp r.createdAt) r.filePath
  nodup : (s.activeLinks.map Prod.fst).Nodup
  stored : s.store = some s.activeLinks

theorem linkTable_init : LinkTable ser clock (init (some [])) := by
  constructor
  · intro token r h
    cases h
  · intro token r h
    cases h
  · exact List.nodup_nil
  · rfl

theorem LinkTable.later (h : LinkTable ser clock s) {now : ℚ} (hnow : clock ≤ now) : LinkTable ser now s :=
  ⟨fun token r hget => (h.times token r hget).trans hnow, h.tokens, h.nodup, h.stored⟩

theorem get_removeLink (s : ShareLinkService τ) (token token' : τ) :
    (s.removeLink token').activeLinks.get token = if token = token' then none else s.activeLinks.get token := by
  split
  · rename_i heq
    rw [heq]
    exact OrderedDict.get_erase_self _ _
  · rename_i hne
    exact OrderedDict.get_erase_of_ne _ _ _ hne

theorem LinkTable.removeLink (h : LinkTable ser clock s) (token' : τ) : LinkTable ser clock (s.removeLink token') := by
  have hold : ∀ token r, (s.removeLink token').activeLinks.get token = some r → s.activeLinks.get token = some r := by
    intro token r hget
    rw [get_removeLink] at hget
    split at hget
    · cases hget
    · exact hget
  constructor
  · exact fun token r hget => h.times token r (hold token r hget)
  · exact fun token r hget => h.tokens token r (hold token r hget)
  · exact OrderedDict.nodup_erase _ _ h.nodup
  · unfold ShareLinkService.removeLink
    rw [h.stored]
    rfl

theorem get_foldl_removeLink (s : ShareLinkService τ) (tokens : List τ) (token : τ) :
    (tokens.foldl ShareLinkService.removeLink s).activeLinks.get token =
      if token ∈ tokens then none else s.activeLinks.get token := by
  induction tokens generalizing s with
  | nil => simp
  | cons token' tokens ih =>
      rw [List.foldl_cons, ih, get_removeLink]
      by_cases hmem : token ∈ tokens
      · simp [hmem]
      · simp [hmem]

theorem LinkTable.foldl_removeLink (h : LinkTable ser clock s) (tokens : List τ) :
    LinkTable ser clock (tokens.foldl ShareLinkService.removeLink s) := by
  induction tokens generalizing s with
  | nil => exact h
  | cons token tokens ih => exact ih (h.removeLink token)

theorem valid_removeLink {now : ℚ} {token token' : τ} {path : String} :
    (s.removeLink token').Valid now token path ↔ token ≠ token' ∧ s.Valid now token path := by
  unfold Valid
  simp only [get_removeLink]
  by_cases heq : token = token'
  · simp [heq]
  · simp [heq]

theorem LinkTable.loads (h : LinkTable ser clock s) {now : ℚ} (hnow : clock ≤ now) {token : τ}
    {r : ShareLinkRecord τ} (hget : s.activeLinks.get token = some r) :
    ser.loads (getTimestamp now) r.ttlSeconds token =
      if r.Within now then .ok r.filePath else .error .signatureExpired := by
  have hage := ShareHistory.getTimestamp_mono _ _ ((h.times token r hget).trans hnow)
  rw [h.tokens token r hget, ser.loads_dumps]
  by_cases hwithin : r.Within now
  · rw [if_pos hwithin]
    unfold ShareLinkRecord.Within at hwithin
    rw [if_neg (by omega)]
  · rw [if_neg hwithin]
    unfold ShareLinkRecord.Within at hwithin
    rw [if_pos (by omega)]

theorem LinkTable.validateToken_eq (h : LinkTable ser clock s) {now : ℚ} (hnow : clock ≤ now) (token : τ) :
    s.validateToken ser now token =
      match s.activeLinks.get token with
      | none => (s, .error (.revoked token))
      | some r => if r.Within now then (s, .ok r.filePath) else (s.removeLink token, .error (.expired token)) := by
  unfold ShareLinkService.validateToken
  cases hget : s.activeLinks.get token with
  | none => rfl
  | some r =>
      simp only [h.loads hnow hget]
      by_cases hwithin : r.Within now
      · simp only [hwithin, if_true]
      · simp only [hwithin, if_false]

theorem LinkTable.validate_iff (h : LinkTable ser clock s) {now : ℚ} (hnow : clock ≤ now) (token : τ) (path : String) :
    (s.validateToken ser now token).2 = .ok path ↔ s.Valid now token path := by
  rw [h.validateToken_eq hnow]
  unfold Valid
  cases hget : s.activeLinks.get token with
  | none => simp
  | some r =>
      by_cases hwithin : r.Within now
      · simp [hwithin]
      · simp [hwithin]

theorem LinkTable.validateToken (h : LinkTable ser clock s) {now : ℚ} (hnow : clock ≤ now) (token : τ) :
    LinkTable ser now (s.validateToken ser now token).1 := by
  rw [h.validateToken_eq hnow]
  split
  · exact h.later hnow
  · split
    · exact h.later hnow
    · exact (h.later hnow).removeLink token

theorem valid_of_sweep {t now : ℚ} (hnow : t ≤ now) {tokens : List τ}
    (hswept : ∀ token ∈ tokens, ∀ r, s.activeLinks.get token = some r → ¬r.Within t) (token : τ) (path : String) :
    (tokens.foldl ShareLinkService.removeLink s).Valid now token path ↔ s.Valid now token path := by
  unfold Valid
  rw [get_foldl_removeLink]
  by_cases hmem : token ∈ tokens
  · rw [if_pos hmem]
    constructor
    · rintro ⟨r, hget, -⟩
      cases hget
    · rintro ⟨r, hget, -, hwithin⟩
      exact absurd (hwithin.of_le hnow) (hswept token hmem r hget)
  · rw [if_neg hmem]

theorem LinkTable.valid_validateToken (h : LinkTable ser clock s) {t now : ℚ} (hclock : clock ≤ t) (hnow : t ≤ now)
    (token' token : τ) (path : String) :
    (s.validateToken ser t token').1.Valid now token path ↔ s.Valid now token path := by
  rw [h.validateToken_eq hclock]
  cases hget : s.activeLinks.get token' with
  | none => rfl
  | some r =>
      by_cases hwithin : r.Within t
      · simp only [hwithin, if_true]
      · simp only [hwithin, if_false]
        have hswept : ∀ token ∈ [token'], ∀ r, s.activeLinks.get token = some r → ¬r.Within t := by
          intro token hmem r' hget'
          rw [List.mem_singleton.mp hmem, hget] at hget'
          cases hget'
          exact hwithin
        exact valid_of_sweep hnow hswept token path

theorem LinkTable.expired_iff (h : LinkTable ser clock s) {now : ℚ} (hnow : clock ≤ now) (token : τ) :
    token ∈ (s.activeLinks.filter fun e => !loadable ser now e).map Prod.fst ↔
      ∃ r, s.activeLinks.get token = some r ∧ ¬r.Within now := by
  have hloadable : ∀ r, s.activeLinks.get token = some r → (loadable ser now (token, r) = true ↔ r.Within now) := by
    intro r hget
    unfold loadable
    simp only [h.loads hnow hget]
    by_cases hwithin : r.Within now
    · simp [hwithin]
    · simp [hwithin]
  constructor
  · intro hmem
    obtain ⟨⟨token', r⟩, he, rfl⟩ := List.mem_map.mp hmem
    obtain ⟨he, hfailed⟩ := List.mem_filter.mp he
    have hget := OrderedDict.get_eq_some_of_mem _ _ _ h.nodup he
    refine ⟨r, hget, ?_⟩
    rw [← hloadable r hget]
    simpa using hfailed
  · rintro ⟨r, hget, hexpired⟩
    refine List.mem_map.mpr ⟨(token, r), List.mem_filter.mpr ⟨OrderedDict.mem_of_lookup _ token r hget, ?_⟩, rfl⟩
    rw [← hloadable r hget] at hexpired
    simpa using hexpired

theorem LinkTable.listActiveLinks (h : LinkTable ser clock s) {now : ℚ} (hnow : clock ≤ now) :
    LinkTable ser now (s.listActiveLinks ser now).1 := (h.later hnow).foldl_removeLink _

theorem LinkTable.valid_listActiveLinks (h : LinkTable ser clock s) {t now : ℚ} (hclock : clock ≤ t) (hnow : t ≤ now)
    (token : τ) (path : String) : (s.listActiveLinks ser t).1.Valid now token path ↔ s.Valid now token path := by
  refine valid_of_sweep hnow ?_ token path
  intro token' hmem r hget
  obtain ⟨r', hget', hexpired⟩ := (h.expired_iff hclock token').mp hmem
  rw [hget] at hget'
  cases hget'
  exact hexpired

theorem LinkTable.revokeLink (h : LinkTable ser clock s) (token : τ) : LinkTable ser clock (s.revokeLink token).1 := by
  unfold ShareLinkService.revokeLink
  split
  · exact h
  · exact h.removeLink token

theorem valid_revokeLink {now : ℚ} {token token' : τ} {path : String} :
    (s.revokeLink token').1.Valid now token path ↔ token ≠ token' ∧ s.Valid now token path := by
  unfold revokeLink
  cases hget : s.activeLinks.get token' with
  | none =>
      refine ⟨fun hvalid => ⟨?_, hvalid⟩, fun hvalid => hvalid.2⟩
      rintro rfl
      obtain ⟨r, hsome, -⟩ := hvalid
      rw [hget] at hsome
      cases hsome
  | some r => exact valid_removeLink

theorem LinkTable.createLink (h : LinkTable ser clock s) {now : ℚ} (hnow : clock ≤ now) (filePath : String)
    (ttl : ShareTTL) : LinkTable ser now (s.createLink ser now filePath ttl).1 := by
  have hget : ∀ token r, (s.createLink ser now filePath ttl).1.activeLinks.get token = some r →
      (token = ser.dumps (getTimestamp now) filePath ∧
        r = ⟨ser.dumps (getTimestamp now) filePath, filePath, now, ttl.seconds⟩) ∨
          s.activeLinks.get token = some r := by
    intro token r hsome
    by_cases heq : token = ser.dumps (getTimestamp now) filePath
    · rw [heq] at hsome ⊢
      exact .inl ⟨rfl, Option.some.inj (hsome.symm.trans (OrderedDict.get_set_self _ _ _))⟩
    · exact .inr ((OrderedDict.get_set_of_ne _ _ _ _ heq).symm.trans hsome)
  constructor
  · intro token r hsome
    rcases hget token r hsome with ⟨-, rfl⟩ | hold
    · exact le_rfl
    · exact (h.times token r hold).trans hnow
  · intro token r hsome
    rcases hget token r hsome with ⟨heq, rfl⟩ | hold
    · exact heq
    · exact h.tokens token r hold
  · exact OrderedDict.nodup_set _ _ _ h.nodup
  · unfold ShareLinkService.createLink
    rw [h.stored]
    rfl

theorem valid_createLink {t now : ℚ} {filePath path : String} {ttl : ShareTTL} {token : τ} :
    (s.createLink ser t filePath ttl).1.Valid now token path ↔
      (token = ser.dumps (getTimestamp t) filePath ∧ filePath = path ∧
        getTimestamp now - getTimestamp t ≤ ttl.seconds) ∨
      (token ≠ ser.dumps (getTimestamp t) filePath ∧ s.Valid now token path) := by
  unfold Valid ShareLinkService.createLink ShareLinkRecord.Within
  dsimp only
  by_cases heq : token = ser.dumps (getTimestamp t) filePath
  · rw [heq, OrderedDict.get_set_self]
    simp
  · rw [OrderedDict.get_set_of_ne _ _ _ _ heq]
    simp [heq]

theorem LinkTable.restart (h : LinkTable ser clock s) : init s.store = s := by
  unfold init
  rw [h.stored, Option.map_some, Option.getD_some, OrderedDict.fill_of_nodup _ h.nodup, ← h.stored]

end ShareLinkService

end NetworkFileServer.Server
