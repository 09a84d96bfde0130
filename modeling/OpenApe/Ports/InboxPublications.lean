import OpenApe.Ports.InboxStore

/-!
# Notifications and publications (`outbox.ts`, `inbox-store.ts`)

The desktop checks what a script wants to tell the owner (`parseNotify`) and
queues a publication for it (`queue`); the relay checks the publication it is
sent (`parsePublication`).  Both bound the same fields, the desktop in UTF-16
units of the raw text where the relay counts UTF-8 bytes, or units of the
normalised link.

The URL parser and the Unicode tables of the language are parameters.
-/

namespace OpenApe.Ports.InboxPublications

open Verified.JsText Verified.Json Verified.Unicode Verified.Utf8
open CentralValues CentralCommands
open InboxStore (InboxLink InboxPublication)

/-! ## Tags (`tags.ts`, `contracts/inbox.ts`) -/

/-- `text.replace(/\s+/g, '-')`: of a run of white space the last unit becomes
the hyphen. -/
def hyphenate : JsString → JsString
  | [] => []
  | u :: rest =>
      if isTrimmed u then
        if rest.head?.any isTrimmed then hyphenate rest
        else unit '-' :: hyphenate rest
      else u :: hyphenate rest

structure Url where
  protocol : JsString
  username : JsString
  password : JsString
  href : JsString
  deriving DecidableEq

/-- `URL.parse`, `toLocaleLowerCase('de')` and `[\p{L}\p{N}]`. -/
structure TextRuntime where
  parseUrl : JsString → Option Url
  lower : JsString → JsString
  isLetter : Nat → Bool

/-- What the code relies on: the `href` of a URL denotes the same URL, text in
lower case stays so when its white space becomes hyphens, and no white space
is a letter or a digit. -/
structure Lawful (runtime : TextRuntime) : Prop where
  reparse : ∀ text url, runtime.parseUrl text = some url →
    runtime.parseUrl url.href = some url
  lowered : ∀ text, runtime.lower (hyphenate (runtime.lower text)) =
    hyphenate (runtime.lower text)
  letters : ∀ u, isTrimmed u = true → runtime.isLetter u.toNat = false

def tagsPerItem : Nat := 8

def tagLength : Nat := 32

/-- `/^[\p{L}\p{N}][\p{L}\p{N}-]*$/u` -/
def tagPattern (runtime : TextRuntime) (tag : JsString) : Bool :=
  match codePoints tag with
  | [] => false
  | c :: cs => runtime.isLetter c &&
      cs.all fun c => runtime.isLetter c || c == (unit '-').toNat

def normalizeTag (runtime : TextRuntime) (value : Unknown) :
    Except WorkspaceError JsString :=
  let tag := ((text? value).map fun text =>
    hyphenate (runtime.lower (trim text))).getD []
  if tag.isEmpty || tagLength < tag.length || !tagPattern runtime tag then
    .error (.error (js "Invalid tag"))
  else .ok tag

def normalizeTags (runtime : TextRuntime) (value : Unknown) :
    Except WorkspaceError (List JsString) :=
  match value with
  | some (.array items) => do
      let tags ← items.mapM fun item => normalizeTag runtime (some item)
      throwIf (tagsPerItem < tags.eraseDups.length)
        (.error (js "Too many tags"))
      return tags.eraseDups
  | _ => .error (.error (js "Invalid tags"))

/-- `new Set(items).size !== items.length` -/
def hasRepeat : List JsonValue → Bool
  | [] => false
  | item :: items =>
      items.any (fun other => strictEq (some item) (some other)) ||
        hasRepeat items

/-- `items.some(tag => normalizeTag(tag) !== tag)` -/
def someDiffers (runtime : TextRuntime) :
    List JsonValue → Except WorkspaceError Bool
  | [] => .ok false
  | item :: items => do
      let tag ← normalizeTag runtime (some item)
      if isText (some item) tag then someDiffers runtime items else .ok true

def parseInboxTags (runtime : TextRuntime) (value : Unknown) :
    Except WorkspaceError (List JsString) :=
  match value with
  | some (.array items) => do
      throwIf (2 * tagsPerItem < items.length || hasRepeat items)
        (.error (js "Invalid inbox tags"))
      let differs ← someDiffers runtime items
      throwIf differs (.error (js "Invalid inbox tags"))
      return items.filterMap JsonValue.text?
  | _ => .error (.error (js "Invalid inbox tags"))

/-! ## Texts and links -/

/-- `Buffer.byteLength(text)` -/
def byteLength (text : JsString) : Nat := (utf8 text).length

/-- `!text.trim()` -/
def isBlank (text : JsString) : Bool := (trim text).isEmpty

/-- `/\w/` -/
def isWordUnit (u : CodeUnit) : Bool :=
  (48 ≤ u && u ≤ 57) || (65 ≤ u && u ≤ 90) || (97 ≤ u && u ≤ 122) ||
    u == unit '_'

/-- The URL of a link, of at most 2048 units. -/
def linkUrl (runtime : TextRuntime) (link : JsonValue) : Option Url :=
  match text? (member (some link) "url") with
  | some text =>
      if text.length ≤ 2048 then runtime.parseUrl text else none
  | none => none

/-- One link, as both sides check it. -/
def parseLink (runtime : TextRuntime) (refused : WorkspaceError)
    (link : JsonValue) : Except WorkspaceError InboxLink :=
  match linkUrl runtime link, text? (member (some link) "title") with
  | some url, some title =>
      if url.protocol != js "https:" || !url.username.isEmpty ||
          !url.password.isEmpty || isBlank title || 200 < title.length then
        .error refused
      else .ok { title := title, url := url.href }
  | _, _ => .error refused

/-- At most five links; none where the field is missing. -/
def linkItems (refused : WorkspaceError) (value : JsonValue) :
    Except WorkspaceError (List JsonValue) :=
  match value.field? (js "links") with
  | none => .ok []
  | some (.array items) =>
      if 5 < items.length then .error refused else .ok items
  | some _ => .error refused

/-! ## The desktop (`outbox.ts`) -/

structure Notify where
  key : JsString
  title : JsString
  body : JsString
  links : List InboxLink
  deriving DecidableEq

def notifyError (message : String) : WorkspaceError := .error (js message)

/-- `/^[\w.-]{1,120}$/` -/
def isNotifyKey (key : JsString) : Bool :=
  1 ≤ key.length && key.length ≤ 120 &&
    key.all fun u => isWordUnit u || u == unit '.' || u == unit '-'

/-- A text that passes a check. -/
def checkedText (accepts : JsString → Bool) (refused : WorkspaceError)
    (value : Unknown) : Except WorkspaceError JsString :=
  match text? value with
  | some text => if accepts text then .ok text else .error refused
  | none => .error refused

def parseNotify (runtime : TextRuntime) (payload : Unknown) :
    Except WorkspaceError Notify := do
  let value ←
    plainObject "notify expects \x7b key, title, body, links? \x7d" payload
  throwIf (hasOtherKeys ["key", "title", "body", "links"] value)
    (notifyError "notify accepts only key, title, body and links; the recipient is always the Pod owner")
  let key ← checkedText isNotifyKey
    (notifyError "notify key must be 1–120 letters, digits, dots, dashes or underscores and stable for this message")
    (value.field? (js "key"))
  let title ← checkedText
    (fun title => !isBlank title && title.length ≤ 300)
    (notifyError "notify title must be 1–300 characters")
    (value.field? (js "title"))
  let body ← checkedText
    (fun body => !isBlank body && byteLength body ≤ 64 * 1024)
    (notifyError "notify body must be non-empty and at most 64 KiB")
    (value.field? (js "body"))
  let items ← linkItems
    (notifyError "notify accepts at most five links") value
  let links ← items.mapM (parseLink runtime
    (notifyError "notify links need a title and an https URL"))
  return { key := key, title := title, body := body, links := links }

/-- The name of a Pod, as `createPod` checks it (`database.ts`). -/
def podNameOf (value : Unknown) : Except WorkspaceError JsString :=
  checkedText
    (fun name => !isBlank name && name.length ≤ 100 && !name.contains 0)
    (.error (js "Invalid name")) value

structure Pod where
  id : JsString
  name : JsString

inductive DeliveryState where
  | pending
  | delivered
  | refused
  deriving DecidableEq

/-- A row of `inbox_outbox`. -/
structure QueuedRow where
  eventId : JsString
  podId : JsString
  runId : JsString
  digest : JsString
  publication : JsonValue
  state : DeliveryState
  nextAt : Int
  createdAt : Int
  updatedAt : Int

/-- What `queue` answers. -/
structure QueueReceipt where
  eventId : JsString
  queued : Bool
  deriving DecidableEq

def linkValue (link : InboxLink) : JsonValue :=
  .object [(js "title", .string link.title), (js "url", .string link.url)]

def notifyDigest (sha256 : List UInt8 → JsString) (notify : Notify) :
    JsString :=
  sha256 (utf8 (stringify (.array [.string notify.title, .string notify.body,
    .array (notify.links.map linkValue)])))

/-- `${pod.id}:${notify.key}` -/
def eventIdOf (pod : Pod) (notify : Notify) : JsString :=
  pod.id ++ js ":" ++ notify.key

/-- The publication that is sent, as JSON. -/
def publicationOf (pod : Pod) (runId : JsString) (podTags : List JsString)
    (notify : Notify) : JsonValue :=
  .object ([(js "eventId", .string (eventIdOf pod notify)),
      (js "kind", .string (js "message")),
      (js "title", .string notify.title),
      (js "body", .string notify.body),
      (js "podId", .string pod.id),
      (js "podName", .string (pod.name.take 200))] ++
    (if podTags.isEmpty then []
      else [(js "podTags", .array (podTags.map .string))]) ++
    [(js "runId", .string runId),
      (js "links", .array (notify.links.map linkValue))])

/-- `InboxOutbox.queue`, with the tags that the Pod has now. -/
def queue (sha256 : List UInt8 → JsString) (now : Nat → Int)
    (rows : List QueuedRow) (pod : Pod) (runId : JsString)
    (podTags : List JsString) (notify : Notify) :
    Except WorkspaceError (QueueReceipt × List QueuedRow) :=
  let eventId := eventIdOf pod notify
  let digest := notifyDigest sha256 notify
  match rows.find? (fun row => row.eventId = eventId) with
  | some existing =>
      if existing.digest = digest then
        .ok ({ eventId := eventId, queued := false }, rows)
      else .error (.error (js "notify key \"" ++ notify.key ++
        js "\" was already used with different content"))
  | none =>
      .ok ({ eventId := eventId, queued := true }, rows ++ [{
        eventId := eventId
        podId := pod.id
        runId := runId
        digest := digest
        publication := publicationOf pod runId podTags notify
        state := .pending
        nextAt := now 0
        createdAt := now 1
        updatedAt := now 2 }])

/-! ## The relay (`inbox-store.ts`) -/

def invalidItem : WorkspaceError := protocolError (js "invalid_inbox_item")

/-- `/^[\w.:-]{1,200}$/` -/
def isEventKey (key : JsString) : Bool :=
  1 ≤ key.length && key.length ≤ 200 && key.all fun u =>
    isWordUnit u || u == unit '.' || u == unit ':' || u == unit '-'

def relayObject (input : Unknown) : Except WorkspaceError JsonValue :=
  match input with
  | some (.object members) => .ok (.object members)
  | _ => .error invalidItem

/-- `text(field, maximum)` -/
def relayText (value : JsonValue) (field : String) (maximum : Nat) :
    Except WorkspaceError JsString :=
  match text? (value.field? (js field)) with
  | some raw =>
      if isBlank raw then .error invalidItem
      else if maximum < byteLength raw then
        .error (.protocol (js "inbox_item_too_large") 413)
      else .ok raw
  | none => .error invalidItem

/-- `text(field, maximum, false)` -/
def relayOptionalText (value : JsonValue) (field : String) (maximum : Nat) :
    Except WorkspaceError (Option JsString) :=
  if (value.field? (js field)).isNone then .ok none
  else do
    let raw ← relayText value field maximum
    return some raw

/-- An id, where the field is there and not `null`. -/
def relayId (value : JsonValue) (field : String) :
    Except WorkspaceError (Option JsString) :=
  match value.field? (js field) with
  | none => .ok none
  | some .null => .ok none
  | some (.string id) =>
      if isLooseId id then .ok (some id) else .error invalidItem
  | some _ => .error invalidItem

def relayTags (runtime : TextRuntime) (value : JsonValue) :
    Except WorkspaceError (Option (List JsString)) :=
  match value.field? (js "podTags") with
  | none => .ok none
  | some tags =>
      match parseInboxTags runtime (some tags) with
      | .ok tags => .ok (some tags)
      | .error _ => .error invalidItem

def parsePublication (runtime : TextRuntime) (input : Unknown) :
    Except WorkspaceError InboxPublication := do
  let value ← relayObject input
  throwIf (hasOtherKeys ["eventId", "kind", "title", "body", "podId",
    "podName", "podTags", "runId", "links"] value) invalidItem
  let eventId ← checkedText isEventKey invalidItem
    (value.field? (js "eventId"))
  throwIf (!isText (value.field? (js "kind")) (js "message")) invalidItem
  let items ← linkItems invalidItem value
  let links ← items.mapM
    (parseLink runtime (protocolError (js "invalid_inbox_link")))
  let podId ← relayId value "podId"
  let runId ← relayId value "runId"
  let podTags ← relayTags runtime value
  let title ← relayText value "title" 300
  let body ← relayText value "body" (64 * 1024)
  let podName ← relayOptionalText value "podName" 200
  return {
    eventId := eventId
    title := title
    body := body
    podId := podId
    podName := podName
    podTags := podTags
    runId := runId
    links := links }

end OpenApe.Ports.InboxPublications
