import PulseOps.Model.NotificationTemplates
import PulseOps.Model.Rows

/-!
# Notifications

`processSendNotification` of `jobs/processors/notification.processor.js` and `createNotification` of
`notifications/notifications.service.js`. Texts are lists of characters, times are milliseconds.
Parameters of a job that are missing have their defaults. Titles and messages are texts. Of the
errors of the database, those are modelled that a payload causes; so the check for duplicates does
not fail. Logs, realtime events and preferences are left out.
-/

set_option autoImplicit false

namespace PulseOps.Notifications

open ScriptText (trim utf16Length)
open Templates (Text)

variable {ν : Type}

/-! ### Rows -/

structure NotificationRow (ν : Type) where
  id : ℕ
  tenantId : Text
  userId : Option Text
  type : Text
  title : Text
  message : Text
  channel : Text
  referenceType : Option Text
  referenceId : Option Text
  metadata : Json ν
  createdAt : ℤ

structure TemplateRow where
  tenantId : Text
  name : Text
  channel : Text
  template : Templates.Template
  isActive : Bool

/-! ### Jobs -/

structure Payload (ν : Type) where
  tenantId : Text
  userId : Option Text := none
  type : Text := "INFO".toList
  title : Text
  message : Text
  channel : Text := "IN_APP".toList
  referenceType : Option Text := none
  referenceId : Option Text := none
  metadata : Json ν := .obj []
  template : Option Text := none
  vars : List (String × Json ν) := []

/-- A job, and what is there when it is processed. -/
structure Job (ν : Type) where
  payload : Payload ν
  templates : List TemplateRow
  /-- `Date.now()` of the check. -/
  now : ℤ
  /-- The identifier and the time that a new row gets. -/
  newId : ℕ
  createdAt : ℤ

inductive Failure where
  | app (error : AppError)
  /-- A `TypeError`, or an error of the database. -/
  | other

/-- How a job ends. -/
inductive Outcome (ν : Type) where
  | skipped (existing : NotificationRow ν)
  | created (notification : NotificationRow ν)
  | unrecoverable (failure : Failure)
  | retry (failure : Failure)

def validationError (message : String) : AppError := ⟨message, 400, "VALIDATION_ERROR"⟩

def RECENT_WINDOW_MS : ℤ := 60 * 1000

def permanentCodes : List String :=
  ["VALIDATION_ERROR", "TENANT_REQUIRED", "NOTIFICATION_NOT_FOUND", "INVALID_NOTIFICATION"]

/-- `isRetryableError`. -/
def isRetryableError : Failure → Bool
  | .app err =>
    !(err.code ∈ permanentCodes ||
      (400 ≤ err.statusCode && err.statusCode < 500 && err.code ≠ "RATE_LIMITED"))
  | .other => true

def allowedTypes : List Text :=
  ["INFO".toList, "SUCCESS".toList, "WARNING".toList, "ERROR".toList]

def allowedChannels : List Text :=
  ["IN_APP".toList, "EMAIL".toList, "SMS".toList, "PUSH".toList]

/-! ### Creating -/

/-- A text that is not falsy. -/
def truthy (text : Option Text) : Option Text := text.filter (· ≠ [])

/-- `createNotification`. -/
def createNotification (payload : Payload ν) (newId : ℕ) (createdAt : ℤ) :
    Except Failure (NotificationRow ν) := do
  if payload.tenantId = [] then throw (.app (validationError "tenantId is required"))
  if trim payload.title = [] then throw (.app (validationError "title is required"))
  if trim payload.message = [] then throw (.app (validationError "message is required"))
  if payload.type ≠ [] ∧ payload.type ∉ allowedTypes then
    throw (.app (validationError "Invalid notification type"))
  if payload.channel ≠ [] ∧ payload.channel ∉ allowedChannels then
    throw (.app (validationError "Invalid notification channel"))
  if 255 < utf16Length payload.title then throw (.app (validationError "Title too long"))
  if 2000 < utf16Length payload.message then throw (.app (validationError "Message too long"))
  -- an empty type or channel is no value of its enumeration
  if payload.type = [] ∨ payload.channel = [] then throw .other
  return {
    id := newId
    tenantId := payload.tenantId
    userId := truthy payload.userId
    type := payload.type
    title := trim payload.title
    message := trim payload.message
    channel := payload.channel
    referenceType := truthy payload.referenceType
    referenceId := truthy payload.referenceId
    metadata := match payload.metadata with
      | .obj members => .obj members
      | .arr items => .arr items
      | _ => .obj []
    createdAt }

/-! ### Processing -/

/-- `findActiveTemplate`. -/
def findActiveTemplate (templates : List TemplateRow) (tenantId : Text) (name : Option Text)
    (channel : Text) : Except Failure (Option Templates.Template) :=
  match truthy name with
  | none => .ok none
  | some name =>
    if channel ∈ allowedChannels then
      .ok ((templates.find? fun row => row.tenantId = tenantId && row.name = name &&
        row.channel = channel && row.isActive).map (·.template))
    else .error .other

/-- The payload with the title and the message of its template, if it has one. -/
def rendered (numberText : ν → Text) (job : Job ν) : Except Failure (Payload ν) := do
  let payload := job.payload
  if payload.tenantId = [] then throw (.app (validationError "tenantId is required"))
  match ← findActiveTemplate job.templates payload.tenantId payload.template payload.channel with
  | none => return payload
  | some stored =>
    match Templates.renderTemplate numberText payload.vars stored with
    | none => throw .other
    | some result =>
      return { payload with
        title := (truthy result.subject).getD payload.title
        message := result.body }

/-- A row with the tenant, the reference and the title, since the beginning of the window. -/
def duplicates (tenantId referenceType referenceId title : Text) (since : ℤ)
    (row : NotificationRow ν) : Bool :=
  row.tenantId = tenantId && row.referenceType = some referenceType &&
    row.referenceId = some referenceId && row.title = title && since ≤ row.createdAt

/-- The newer one of the newest row so far and another one. -/
def newer (best : Option (NotificationRow ν)) (row : NotificationRow ν) :
    Option (NotificationRow ν) :=
  match best with
  | none => some row
  | some found => if found.createdAt < row.createdAt then some row else some found

def newest (rows : List (NotificationRow ν)) : Option (NotificationRow ν) := rows.foldl newer none

/-- The check for a recent duplicate, which is made for payloads with a reference. -/
def existing (rows : List (NotificationRow ν)) (payload : Payload ν) (now : ℤ) :
    Option (NotificationRow ν) :=
  match truthy payload.referenceType, truthy payload.referenceId with
  | some referenceType, some referenceId =>
    newest (rows.filter (duplicates payload.tenantId referenceType referenceId
      (trim payload.title) (now - RECENT_WINDOW_MS)))
  | _, _ => none

def failed (failure : Failure) : Outcome ν :=
  if isRetryableError failure then .retry failure else .unrecoverable failure

/-- `processSendNotification`: the outcome, and the rows after it. -/
def processSendNotification (numberText : ν → Text) (rows : List (NotificationRow ν))
    (job : Job ν) : Outcome ν × List (NotificationRow ν) :=
  match rendered numberText job with
  | .error failure => (failed failure, rows)
  | .ok payload =>
    match existing rows payload job.now with
    | some found => (.skipped found, rows)
    | none =>
      match createNotification payload job.newId job.createdAt with
      | .error failure => (failed failure, rows)
      | .ok notification => (.created notification, rows ++ [notification])

/-- The rows after some jobs, processed one after another. -/
def processAll (numberText : ν → Text) (rows : List (NotificationRow ν)) (jobs : List (Job ν)) :
    List (NotificationRow ν) :=
  jobs.foldl (fun rows job => (processSendNotification numberText rows job).2) rows

end PulseOps.Notifications
