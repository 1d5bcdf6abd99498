import AgentLabs.GuardLab.Permission

/-!
# To whom guarded sends deliver

A `send_report` call is decided on the normal form of its recipient: the first
`<…>` group, or the whole string, stripped and in lower case. What reaches the
outbox is the recipient as spelled. The two agree up to case exactly where there
is nothing to normalise but case.

## Main definitions

* `SendCall`, `runSends`: runs of guarded sends
* `deliveries`: the entries a run appends, each with the context it was sent under
* `Approved`: the delivery is one the permission table stands for
* `Bare`: a recipient without brackets and surrounding blanks

## Main results

* `outbox_runSends`: the outbox of a run is the initial one and the deliveries
* `approved_normalForm`: in every run the normal form of each recipient is approved
* `approved_of_bare`: runs whose allowed calls spell bare recipients deliver to
  approved reviewers only
* `not_approved_displayName`: a display name is delivered along with the address
-/

namespace AgentLabs.GuardLab

open Math Text

/-- A `send_report` call: the context it is issued under, the clock reading of its
execution, and its raw arguments. -/
structure SendCall where
  ctx : Option UserContext
  now : String
  project : String
  recipient : String
  subject : String
  body : String
  reportVersion : Int
  callId : String
  deriving DecidableEq, Repr

namespace SendCall

/-- The arguments the wrapper sees. -/
def args (c : SendCall) : Args :=
  sendArgs c.project c.recipient c.subject c.body c.reportVersion

/-- The entry the implementation appends. -/
def entry (c : SendCall) : OutboxEntry :=
  RawOps.outboxSend c.now c.project c.recipient c.subject c.body c.reportVersion
    ((c.ctx.map UserContext.userId).getD "unknown")

/-- Issue the call through a wrapper. -/
def issue (wrapper : Wrapper) (w : World) (c : SendCall) : World :=
  (sendReportTool (some wrapper) c.ctx c.now c.project c.recipient c.subject c.body
    c.reportVersion c.callId w).2

end SendCall

section

variable (lower : String → String) (table : PermissionTable)

/-- One guarded send. -/
def sendStep (w : World) (c : SendCall) : World := c.issue (makeActionWrapper lower table) w

/-- A run of guarded sends. -/
def runSends (w : World) (calls : List SendCall) : World := calls.foldl (sendStep lower table) w

/-- The entries appended by the calls of a run, each with the context of its call. -/
def deliveries (w : World) : List SendCall → List (Option UserContext × OutboxEntry)
  | [] => []
  | c :: rest =>
    let w' := sendStep lower table w c
    (w'.outbox.drop w.outbox.length).map (c.ctx, ·) ++ deliveries w' rest

/-- A delivery under a context with the right to send, to an address (up to case)
of a reviewer of one of the context's projects, at an allowed domain. -/
def Approved (delivery : Option UserContext × OutboxEntry) : Prop :=
  ∃ ctx, delivery.1 = some ctx ∧ ctx.canSend = true ∧
    domainOf (lower delivery.2.recipient) ∈ table.allowedDomains ∧
    ∃ p ∈ ctx.projects, ∃ address ∈ (table.reviewers.get? p).getD [],
      lower delivery.2.recipient = lower address

/-- The table allows the call as it is normalised. -/
def SendCall.Allowed (c : SendCall) : Prop :=
  table.Allows lower c.ctx "send_report" (normalizeArgs lower c.args)

end

/-- A recipient with no `<…>` group and no surrounding blanks. -/
def Bare (recipient : String) : Prop :=
  strip recipient = recipient ∧ angleGroup recipient.toList = none

instance (recipient : String) : Decidable (Bare recipient) :=
  inferInstanceAs (Decidable (_ ∧ _))

variable {lower : String → String} {table : PermissionTable} {w : World} {c : SendCall}
  {calls : List SendCall}

/-- All that is normalised in a bare recipient is its case. -/
theorem normalizeRecipient_of_bare {recipient : String} (h : Bare recipient) :
    normalizeRecipient lower recipient = lower recipient := by
  simp [normalizeRecipient, h.1, h.2]

/-- A guarded send appends the entry as spelled, when the table allows its normal
form, and nothing otherwise. -/
theorem sendStep_cases (lower : String → String) (table : PermissionTable) (w : World)
    (c : SendCall) :
    (c.Allowed lower table ∧ (sendStep lower table w c).outbox = w.outbox ++ [c.entry]) ∨
      (¬ c.Allowed lower table ∧ (sendStep lower table w c).outbox = w.outbox) := by
  rcases guardedCall_cases lower table c.ctx "send_report" c.args
    (RawOps.sendReport c.now c.project c.recipient c.subject c.body c.reportVersion
      ((c.ctx.map UserContext.userId).getD "unknown")) c.callId w with
    ⟨allowed, log, -, ran⟩ | ⟨refused, answer, log, -, ran⟩
  · exact .inl ⟨allowed, congrArg (fun out => out.2.outbox) ran⟩
  · exact .inr ⟨refused, congrArg (fun out => out.2.outbox) ran⟩

/-- The deliveries are what a run adds to the outbox. -/
theorem outbox_runSends :
    (runSends lower table w calls).outbox =
      w.outbox ++ (deliveries lower table w calls).map Prod.snd := by
  induction calls generalizing w with
  | nil => simp [runSends, deliveries]
  | cons c rest ih =>
    rw [show runSends lower table w (c :: rest) = runSends lower table (sendStep lower table w c)
      rest from rfl, ih]
    rcases sendStep_cases lower table w c with ⟨-, out⟩ | ⟨-, out⟩ <;> simp [deliveries, out]

/-- The deliveries of a run are the entries of its allowed calls, in order. -/
theorem mem_deliveries_iff {delivery : Option UserContext × OutboxEntry} :
    delivery ∈ deliveries lower table w calls ↔
      ∃ c ∈ calls, c.Allowed lower table ∧ delivery = (c.ctx, c.entry) := by
  induction calls generalizing w with
  | nil => simp [deliveries]
  | cons c rest ih =>
    simp only [deliveries, List.mem_append, ih, List.exists_mem_cons_iff]
    rcases sendStep_cases lower table w c with ⟨allowed, out⟩ | ⟨refused, out⟩
    · simp [out, allowed]
    · simp [out, refused]

/-- What an allowed call was checked for. -/
theorem SendCall.Allowed.checked (h : c.Allowed lower table) :
    ∃ ctx, c.ctx = some ctx ∧ ctx.canSend = true ∧
      domainOf (normalizeRecipient lower c.recipient) ∈ table.allowedDomains ∧
      ∃ p ∈ ctx.projects, ∃ address ∈ (table.reviewers.get? p).getD [],
        normalizeRecipient lower c.recipient = lower address := by
  cases hctx : c.ctx with
  | none => exact absurd (by simpa [SendCall.Allowed, hctx] using h) not_allows_of_no_context
  | some ctx =>
    have sent : table.Allows lower (some ctx) "send_report" (normalizeArgs lower c.args) := hctx ▸ h
    have project : (normalizeArgs lower c.args).getD "project" =
        .str (normalizeProject lower c.project) := getD_normalizeArgs_project rfl
    have recipient : (normalizeArgs lower c.args).getD "recipient" =
        .str (normalizeRecipient lower c.recipient) := getD_normalizeArgs_recipient rfl
    rw [allows_send_iff project recipient] at sent
    obtain ⟨scope, right, domain, reviewer⟩ := sent
    obtain ⟨address, listed, same⟩ := List.mem_map.mp reviewer
    exact ⟨ctx, rfl, right, domain, _, scope, address, listed, same.symm⟩

/-- In every run, what was checked of each delivery is approved: its recipient,
brought to normal form, is a reviewer's address. -/
theorem approved_normalForm {delivery : Option UserContext × OutboxEntry}
    (h : delivery ∈ deliveries lower table w calls) :
    ∃ ctx, delivery.1 = some ctx ∧ ctx.canSend = true ∧
      domainOf (normalizeRecipient lower delivery.2.recipient) ∈ table.allowedDomains ∧
      ∃ p ∈ ctx.projects, ∃ address ∈ (table.reviewers.get? p).getD [],
        normalizeRecipient lower delivery.2.recipient = lower address := by
  obtain ⟨c, -, allowed, rfl⟩ := mem_deliveries_iff.mp h
  exact allowed.checked

/-- **Delivery to approved recipients.** When every call of a run is refused or
spells a bare recipient, everything the run delivers is approved. -/
theorem approved_of_bare
    (bare : ∀ c ∈ calls, ¬ c.Allowed lower table ∨ Bare c.recipient) :
    ∀ delivery ∈ deliveries lower table w calls, Approved lower table delivery := by
  intro delivery h
  obtain ⟨c, issued, allowed, rfl⟩ := mem_deliveries_iff.mp h
  have spelled : Bare c.recipient := (bare c issued).resolve_left (not_not_intro allowed)
  have checked := allowed.checked
  rw [normalizeRecipient_of_bare spelled] at checked
  exact checked

/-- The laboratory's table, with one reviewer of `alpha`. -/
def oneReviewer : PermissionTable where
  reviewers := [("alpha", ["seojun.park@nurisoft.example"])]

/-- A report on `alpha` sent by a developer of `alpha`. -/
def reportTo (recipient : String) : SendCall where
  ctx := some ⟨"kim.dev", "nurisoft", ["alpha"], true, ""⟩
  now := "2026-09-10T00:00:00+00:00"
  project := "alpha"
  recipient := recipient
  subject := "weekly"
  body := "two failures"
  reportVersion := 1
  callId := "c1"

/-- A run that starts with an empty outbox and workspace. -/
def emptyRun : World where
  ws := ⟨["srv"], by decide, fun _ => none⟩
  outbox := []
  log := {}

theorem approved_of_bare_reviewer :
    deliveries asciiLower oneReviewer emptyRun [reportTo "Seojun.Park@nurisoft.example"] ≠ [] ∧
      ∀ delivery ∈ deliveries asciiLower oneReviewer emptyRun
        [reportTo "Seojun.Park@nurisoft.example"], Approved asciiLower oneReviewer delivery :=
  ⟨by decide, approved_of_bare (by
    intro c issued
    obtain rfl := List.mem_singleton.mp issued
    exact .inr (by decide))⟩

/-- A recipient with a display name passes the check on its address and is
delivered with the name and the brackets. -/
theorem not_approved_displayName : ¬ ∀ delivery ∈ deliveries asciiLower oneReviewer emptyRun
    [reportTo "Seojun <seojun.park@nurisoft.example>"],
    Approved asciiLower oneReviewer delivery := by
  intro approved
  obtain ⟨ctx, -, -, domain, -⟩ := approved
    ((reportTo "").ctx, (reportTo "Seojun <seojun.park@nurisoft.example>").entry) (by decide)
  exact absurd domain (by decide)

/-- Where the table lists bare addresses and changing case neither adds nor removes
brackets and blanks, an approved delivery was spelled bare. -/
theorem bare_of_approved (caseOnly : ∀ s, Bare (lower s) ↔ Bare s)
    (listed : ∀ p, ∀ address ∈ (table.reviewers.get? p).getD [], Bare address)
    {delivery : Option UserContext × OutboxEntry} (h : Approved lower table delivery) :
    Bare delivery.2.recipient := by
  obtain ⟨ctx, -, -, -, p, -, address, reviewer, same⟩ := h
  rw [← caseOnly, same, caseOnly]
  exact listed p address reviewer

end AgentLabs.GuardLab
