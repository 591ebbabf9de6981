import NetworkFileServer.Framework.Json
import NetworkFileServer.Relay.FileTtlDb

/-!
# Control messages of an agent

After its registration an agent can send text frames. The receive loop of the tunnel answers `ping` and
`pong` itself and hands every other message to `_handle_agent_control_for_mount`, which clears expired
rows of the table `file_ttl`: those of the mount code that the message names, or of the session's own
code if it names none.
-/

namespace NetworkFileServer.Relay

/-- The types that `_handle_agent_control_for_mount` acts on. -/
def clearsExpired (message : OrderedDict String Json) : Bool :=
  (Json.get? message "type").any fun type =>
    type.isStr "delete_expired_files" || type.isStr "keep_expired_files"

/-- `msg.get("code", mount_code)`, as the statement compares it; an error is raised by the binding. -/
def clearedCode (mountCode : Code) (message : OrderedDict String Json) :
    Except BindError (Option Code) :=
  ((Json.get? message "code").getD (.str mountCode)).boundText

/-- `_handle_agent_control_for_mount`; `none` is a relay without the table. -/
def handleAgentControlForMount (table : Option FileTtlTable) (mountCode : Code)
    (message : OrderedDict String Json) (now : Int) : Option FileTtlTable :=
  if clearsExpired message then
    table.map fun rows =>
      match clearedCode mountCode message with
      | .error _ => rows
      | .ok code => (rows.deleteExpiredForMount code now).2
  else table

/-- A text frame in the receive loop of the session that was assigned the code. -/
def receiveControl (table : Option FileTtlTable) (assignedCode : Code)
    (message : OrderedDict String Json) (now : Int) : Option FileTtlTable :=
  if (Json.get? message "type").any (·.isStr "pong") then table
  else if (Json.get? message "type").any (·.isStr "ping") then table
  else handleAgentControlForMount table assignedCode message now

/-- The rows of the other mounts. -/
def othersRows (table : Option FileTtlTable) (assignedCode : Code) : Option FileTtlTable :=
  table.map fun rows => rows.filter fun row => row.mountCode ≠ assignedCode

/-- The message names no other mount with expired rows. -/
def OwnMountOnly (table : Option FileTtlTable) (assignedCode : Code) (message : OrderedDict String Json)
    (now : Int) : Prop :=
  clearsExpired message = true → ∀ code, clearedCode assignedCode message = .ok (some code) →
    code ≠ assignedCode → ∀ rows ∈ table, ∀ row ∈ rows, row.mountCode = code → now < row.expiresAt

theorem receiveControl_eq (table : Option FileTtlTable) (assignedCode : Code)
    (message : OrderedDict String Json) (now : Int) :
    receiveControl table assignedCode message now =
      handleAgentControlForMount table assignedCode message now := by
  unfold receiveControl handleAgentControlForMount
  have hclears : ∀ text, text ≠ "delete_expired_files" → text ≠ "keep_expired_files" →
      (Json.get? message "type").any (·.isStr text) = true → clearsExpired message = false := by
    intro text hdelete hkeep htext
    unfold clearsExpired
    cases htype : Json.get? message "type" with
    | none => rfl
    | some type =>
        rw [htype, Option.any_some] at htext
        cases type with
        | str s =>
            have hs : s = text := by simpa [Json.isStr] using htext
            simp [Json.isStr, hs, hdelete, hkeep]
        | _ => rfl
  split
  · rename_i hpong
    rw [hclears "pong" (by decide) (by decide) hpong]
    rfl
  split
  · rename_i hping
    rw [hclears "ping" (by decide) (by decide) hping]
    rfl
  · rfl

/-- Clearing a code leaves the rows of the other mounts alone exactly when the code is the session's own
or has no expired rows. -/
theorem deleteExpiredForMount_others (rows : FileTtlTable) (assignedCode : Code) (code : Option Code)
    (now : Int) :
    ((rows.deleteExpiredForMount code now).2.filter fun row => row.mountCode ≠ assignedCode) =
        rows.filter (fun row => row.mountCode ≠ assignedCode) ↔
      ∀ c, code = some c → c ≠ assignedCode → ∀ row ∈ rows, row.mountCode = c → now < row.expiresAt := by
  rw [FileTtlTable.deleteExpiredForMount_table, List.filter_filter]
  constructor
  · intro h c hcode hne row hrow hmount
    by_contra hexpired
    have hmem : row ∈ rows.filter fun row => row.mountCode ≠ assignedCode :=
      List.mem_filter.mpr ⟨hrow, by simpa [hmount] using hne⟩
    rw [← h] at hmem
    have hkept := (List.mem_filter.mp hmem).2
    have hle : row.expiresAt ≤ now := by omega
    simp [FileTtlTable.expiredFor, hcode, hmount, hle] at hkept
  · intro h
    apply List.filter_congr
    intro row hrow
    by_cases hown : row.mountCode = assignedCode
    · simp [hown]
    · have hkept : FileTtlTable.expiredFor code now row = false := by
        rw [Bool.eq_false_iff]
        intro hexpired
        obtain ⟨hcode, hle⟩ := of_decide_eq_true hexpired
        have hlt := h row.mountCode hcode.symm hown row hrow rfl
        omega
      simp [hown, hkept]

/-- A message leaves the rows of all other mounts unchanged exactly when it names no other mount with
expired rows. -/
theorem receiveControl_others_iff (table : Option FileTtlTable) (assignedCode : Code)
    (message : OrderedDict String Json) (now : Int) :
    othersRows (receiveControl table assignedCode message now) assignedCode =
        othersRows table assignedCode ↔
      OwnMountOnly table assignedCode message now := by
  rw [receiveControl_eq]
  unfold handleAgentControlForMount OwnMountOnly othersRows
  cases hclears : clearsExpired message with
  | false => simp
  | true =>
      cases table with
      | none => simp
      | some rows =>
          cases hcode : clearedCode assignedCode message with
          | error e => simp
          | ok code =>
              have hothers := deleteExpiredForMount_others rows assignedCode code now
              simpa using hothers

/-- The drop box has an expired file. -/
def dropboxRow : FileTtlRow := ⟨"dropbox", "report.pdf", 100, 40⟩

/-- The agent of the mount `abc` clears the record of the drop box. -/
theorem receiveControl_not_confined :
    ¬∀ (table : Option FileTtlTable) (assignedCode : Code) (message : OrderedDict String Json)
        (now : Int),
        othersRows (receiveControl table assignedCode message now) assignedCode =
          othersRows table assignedCode := by
  intro h
  have hframe := h (some [dropboxRow]) "abc"
    [("type", .str "keep_expired_files"), ("code", .str "dropbox")] 200
  revert hframe
  decide

end NetworkFileServer.Relay
