import OpenApe.Ports.InboxAcceptance
import OpenApe.Ports.InboxRuns
import OpenApe.Verified.Numerals

/-!
# The message pages of the inbox

The relay lists the messages of an account (`list`, `messages`), and the
desktop checks a page as a whole (`parseInboxMessagePage`): one message that it
refuses makes it refuse the page.  `messages_readable` says under which
condition on the publications of a run the desktop accepts every page.

A row's position is the value of its `AUTOINCREMENT` column, given by a
function of its id that may be any.  The database driver throws where an
integer column that it reads is not a safe integer.
-/

namespace OpenApe.Ports.InboxMessages

open Verified Verified.Fallible Verified.JsText Verified.Json
  Verified.KeyedTable Verified.Machine Verified.Transactions
  Verified.Transactions.Action
open CentralCommands (hasOtherKeys)
open CentralValues InboxAcceptance InboxPublications InboxRuns InboxStore
open WorkspaceStore (Owner ownerKey)

/-! ## The relay -/

structure InboxMessage where
  id : JsString
  title : JsString
  body : JsString
  pod : Option PodLabel
  runId : Option JsString
  links : List InboxLink
  created : Time
  read : Option Time
  archived : Option Time

/-- `message(item)` -/
def message (value : InboxItem) : InboxMessage where
  id := value.id
  title := value.title
  body := value.body
  pod := value.pod
  runId := value.runId
  links := value.links
  created := value.created
  read := value.read
  archived := value.archived

/-- An integer that the driver reads. -/
def isSafe (n : Int) : Bool := decide (n.natAbs ≤ maxSafeInteger)

/-- The driver reads all integer columns of a row. -/
def isReadable (position : JsString → Nat) (row : ItemRow) : Bool :=
  isSafe (position row.id) && isSafe row.created.ms && isSafe row.sequence &&
    row.read.all (fun moment => isSafe moment.ms) &&
    row.archived.all (fun moment => isSafe moment.ms) &&
    row.deleted.all (fun moment => isSafe moment.ms)

structure ListOptions where
  kind : Option InboxKind := none
  archived : Bool := false
  before : Option Int := none

/-- `Number.isSafeInteger(before) && before > 0 ? before : MAX_SAFE_INTEGER` -/
def beforeOf : Option Int → Int
  | some n => if isSafe n && decide (0 < n) then n else maxSafeInteger
  | none => maxSafeInteger

/-- `SELECT * FROM items WHERE … ORDER BY position DESC LIMIT ?` -/
def selected (position : JsString → Nat) (db : Db) (owner : Owner)
    (options : ListOptions) : List ItemRow :=
  ((db.items.rows.filter fun row =>
      row.owner = ownerKey owner ∧ row.deleted = none ∧
        (position row.id : Int) < beforeOf options.before ∧
        (options.kind = none ∨ options.kind = some row.kind) ∧
        row.archived.isSome = options.archived).insertionSort
    (fun a b => position b.id ≤ position a.id)).take (page + 1)

structure InboxPage where
  items : List InboxItem
  next : Option Nat

/-- None where the driver throws. -/
def list (position : JsString → Nat) (db : Db) (owner : Owner)
    (options : ListOptions) : Option InboxPage :=
  let rows := selected position db owner options
  if rows.all (isReadable position) then
    let shown := rows.take page
    some {
      items := shown.map ItemRow.item
      next := if page < rows.length then
          shown.getLast?.map fun row => position row.id
        else none }
  else none

structure InboxMessagePage where
  messages : List InboxMessage
  next : Option Nat

/-- `messages` with a `list` command. -/
def messages (position : JsString → Nat) (db : Db) (owner : Owner)
    (archived : Bool) (before : Option Int) : Option InboxMessagePage :=
  (list position db owner {
    kind := some .message, archived := archived, before := before }).map
      fun found => ⟨found.items.map message, found.next⟩

/-! ## The answer -/

def natValue (n : Nat) : JsonValue := .number (JsonNumber.ofNat n)

/-- A moment in milliseconds. -/
def momentValue (moment : Time) : JsonValue := natValue moment.ms.toNat

def orNull {α : Type} (f : α → JsonValue) : Option α → JsonValue
  | some value => f value
  | none => .null

def podValue (pod : PodLabel) : JsonValue :=
  .object ([(js "id", .string pod.id),
      (js "name", orNull .string pod.name)] ++
    (pod.tags.map fun tags =>
      (js "tags", JsonValue.array (tags.map .string))).toList)

def messageValue (message : InboxMessage) : JsonValue :=
  .object [(js "id", .string message.id),
    (js "title", .string message.title),
    (js "body", .string message.body),
    (js "pod", orNull podValue message.pod),
    (js "runId", orNull .string message.runId),
    (js "links", .array (message.links.map linkValue)),
    (js "created", momentValue message.created),
    (js "read", orNull momentValue message.read),
    (js "archived", orNull momentValue message.archived)]

def pageValue (page : InboxMessagePage) : JsonValue :=
  .object [(js "messages", .array (page.messages.map messageValue)),
    (js "next", orNull natValue page.next)]

/-! ## The desktop (`contracts/inbox.ts`) -/

structure ReceivedMessage where
  id : JsString
  title : JsString
  body : JsString
  pod : Option PodLabel
  runId : Option JsString
  links : List InboxLink
  created : Option Int
  read : Option Int
  archived : Option Int

structure ReceivedPage where
  messages : List ReceivedMessage
  next : Option Int

def invalidMessage : WorkspaceError := .error (js "Invalid inbox message")

/-- `record(value, fields, invalidMessage)` -/
def messageRecord (fields : List String) (value : Unknown) :
    Except WorkspaceError JsonValue :=
  match value with
  | some (.object members) =>
      if hasOtherKeys fields (.object members) then .error invalidMessage
      else .ok (.object members)
  | _ => .error invalidMessage

def messageText (maximum : Nat) (value : Unknown) :
    Except WorkspaceError JsString :=
  checkedText (fun text => !isBlank text && byteLength text ≤ maximum)
    invalidMessage value

def messageId (value : Unknown) : Except WorkspaceError JsString :=
  checkedText isUuid invalidMessage value

def stamp (nullable : Bool) (value : Unknown) :
    Except WorkspaceError (Option Int) :=
  if nullable && isNull value then .ok none
  else if isSafeFrom 0 value then .ok (safeInteger? value)
  else .error invalidMessage

/-- `value === null ? null : parse(value)` -/
def unlessNull {α : Type} (parse : Unknown → Except WorkspaceError α)
    (value : Unknown) : Except WorkspaceError (Option α) :=
  if isNull value then .ok none else some <$> parse value

/-- `value === undefined ? {} : parse(value)` -/
def unlessMissing {α : Type} (parse : Unknown → Except WorkspaceError α)
    (value : Unknown) : Except WorkspaceError (Option α) :=
  if value.isNone then .ok none else some <$> parse value

def parseMessagePod (runtime : TextRuntime) (value : Unknown) :
    Except WorkspaceError PodLabel := do
  let entry ← messageRecord ["id", "name", "tags"] value
  let id ← messageId (entry.field? (js "id"))
  let name ← unlessNull (messageText 200) (entry.field? (js "name"))
  let tags ← unlessMissing (parseInboxTags runtime)
    (entry.field? (js "tags"))
  return ⟨id, name, tags⟩

def parseMessageLink (runtime : TextRuntime) (link : JsonValue) :
    Except WorkspaceError InboxLink := do
  let entry ← messageRecord ["title", "url"] (some link)
  match linkUrl runtime entry with
  | some url =>
      if url.protocol != js "https:" || !url.username.isEmpty ||
          !url.password.isEmpty then .error invalidMessage
      else do
        let title ← messageText 200 (entry.field? (js "title"))
        return ⟨title, url.href⟩
  | none => .error invalidMessage

/-- `Array.isArray(links) && links.length <= limit` -/
def itemsUpTo (limit : Nat) (value : Unknown) :
    Except WorkspaceError (List JsonValue) :=
  match value with
  | some (.array items) =>
      if limit < items.length then .error invalidMessage else .ok items
  | _ => .error invalidMessage

def parseInboxMessage (runtime : TextRuntime) (value : JsonValue) :
    Except WorkspaceError ReceivedMessage := do
  let item ← messageRecord ["id", "title", "body", "pod", "runId", "links",
    "created", "read", "archived"] (some value)
  let pod ← unlessNull (parseMessagePod runtime) (item.field? (js "pod"))
  let entries ← itemsUpTo 5 (item.field? (js "links"))
  let links ← entries.mapM (parseMessageLink runtime)
  let id ← messageId (item.field? (js "id"))
  let title ← messageText 300 (item.field? (js "title"))
  let body ← messageText (64 * 1024) (item.field? (js "body"))
  let runId ← unlessNull messageId (item.field? (js "runId"))
  let created ← stamp false (item.field? (js "created"))
  let read ← stamp true (item.field? (js "read"))
  let archived ← stamp true (item.field? (js "archived"))
  return ⟨id, title, body, pod, runId, links, created, read, archived⟩

def parseInboxMessagePage (runtime : TextRuntime) (value : Unknown) :
    Except WorkspaceError ReceivedPage := do
  let page ← messageRecord ["messages", "next"] value
  let items ← itemsUpTo 50 (page.field? (js "messages"))
  let messages ← items.mapM (parseInboxMessage runtime)
  throwIf (!decide (messages.map ReceivedMessage.id).Nodup) invalidMessage
  let next ← stamp true (page.field? (js "next"))
  return ⟨messages, next⟩

/-! ## Numerals -/

theorem digitsValue_decimal (n : Nat) : digitsValue (decimal n) = n :=
  Numerals.value_decimal n

/-- A numeral has digits only, and a zero leads it only where it is zero. -/
theorem isNumeral_decimal (n : Nat) : isNumeral (decimal n) = true := by
  have hUnits : (decimal n).all (fun u => 48 ≤ u && u ≤ 57) = true := by
    rw [List.all_eq_true]
    intro u hu
    have hDigit := (IpLiteral.isDigit_iff u).mp
      (Numerals.isDigit_of_mem_decimal hu)
    rw [Bool.and_eq_true, decide_eq_true_iff, decide_eq_true_iff,
      UInt16.le_iff_toNat_le, UInt16.le_iff_toNat_le]
    exact hDigit
  have hShort : ((decimal n).length == 1 ||
      (decimal n).head? != some (unit '0')) = true := by
    by_cases hZero : n = 0
    · rw [hZero, decimal, if_pos (by decide)]
      rfl
    · rw [Bool.or_eq_true, bne_iff_ne]
      exact .inr (Numerals.head_decimal hZero)
  rw [isNumeral, hUnits, hShort,
    List.isEmpty_eq_false_iff.mpr (Numerals.decimal_ne_nil n)]
  rfl

theorem safeInteger?_natValue {n : Nat} (h : n ≤ maxSafeInteger) :
    safeInteger? (some (natValue n)) = some (n : Int) := by
  change numberInteger? (JsonNumber.ofNat n) = some (n : Int)
  have hText : (JsonNumber.ofNat n).text = decimal n := rfl
  rw [numberInteger?, hText, isNumeral_decimal, digitsValue_decimal,
    decide_eq_true h]
  rfl

/-- The desktop reads a stamp that the driver has read. -/
theorem isOk_stamp_natValue {nullable : Bool} {n : Nat}
    (h : n ≤ maxSafeInteger) :
    (stamp nullable (some (natValue n))).isOk = true := by
  have hNull : (nullable && isNull (some (natValue n))) = false :=
    Bool.and_false nullable
  have hSafe : isSafeFrom 0 (some (natValue n)) = true := by
    rw [isSafeFrom, safeInteger?_natValue h, Option.any_some]
    exact decide_eq_true (Int.natCast_nonneg n)
  rw [stamp, hNull, if_neg Bool.false_ne_true, if_pos hSafe]
  rfl

theorem isOk_stamp_moment {nullable : Bool} {moment : Time}
    (h : isSafe moment.ms = true) :
    (stamp nullable (some (momentValue moment))).isOk = true := by
  have hSafe := of_decide_eq_true h
  exact isOk_stamp_natValue (by omega)

theorem isOk_stamp_orNull {α : Type} {f : α → JsonValue} {value : Option α}
    (h : ∀ a ∈ value, (stamp true (some (f a))).isOk = true) :
    (stamp true (some (orNull f value))).isOk = true := by
  cases value with
  | none => rfl
  | some a => exact h a rfl

/-! ## Messages that the desktop reads -/

/-- A text that both sides bound by its bytes. -/
structure IsMessageText (maximum : Nat) (text : JsString) : Prop where
  blank : isBlank text = false
  bytes : byteLength text ≤ maximum

/-- A link that the desktop accepts as it is stored. -/
structure IsMessageLink (runtime : TextRuntime) (link : InboxLink) : Prop where
  url : ∃ url, runtime.parseUrl link.url = some url ∧
    url.protocol = js "https:" ∧ url.username = [] ∧ url.password = []
  length : link.url.length ≤ 2048
  title : IsMessageText 200 link.title

/-- What the desktop asks of a message, as the row has it. -/
structure Presentable (runtime : TextRuntime) (row : ItemRow) : Prop where
  id : isUuid row.id = true
  title : IsMessageText 300 row.title
  body : IsMessageText (64 * 1024) row.body
  podId : ∀ id ∈ row.podId, isUuid id = true
  podName : ∀ name ∈ row.podName, IsMessageText 200 name
  podTags : ∀ tags ∈ row.podTags,
    parseInboxTags runtime (some (.array (tags.map .string))) = .ok tags
  runId : ∀ id ∈ row.runId, isUuid id = true
  fewLinks : row.links.length ≤ 5
  links : ∀ link ∈ row.links, IsMessageLink runtime link

section Reading

variable {runtime : TextRuntime}

theorem messageText_of_is {maximum : Nat} {text : JsString}
    (h : IsMessageText maximum text) :
    messageText maximum (some (.string text)) = .ok text := by
  refine checkedText_eq_ok.mpr ⟨rfl, ?_⟩
  rw [h.blank, decide_eq_true h.bytes]
  rfl

theorem messageId_of_isUuid {id : JsString} (h : isUuid id = true) :
    messageId (some (.string id)) = .ok id :=
  checkedText_eq_ok.mpr ⟨rfl, h⟩

theorem isOk_unlessNull_orNull {α β : Type} {f : α → JsonValue}
    {parse : Unknown → Except WorkspaceError β} {value : Option α}
    (h : ∀ a ∈ value, isNull (some (f a)) = false ∧
      (parse (some (f a))).isOk = true) :
    (unlessNull parse (some (orNull f value))).isOk = true := by
  cases value with
  | none => rfl
  | some a =>
      obtain ⟨hNull, hParse⟩ := h a rfl
      obtain ⟨b, hOk⟩ := isOk_iff.mp hParse
      rw [orNull, unlessNull, hNull, if_neg Bool.false_ne_true, hOk]
      rfl

theorem isOk_parseMessagePod {pod : PodLabel} (hId : isUuid pod.id = true)
    (hName : ∀ name ∈ pod.name, IsMessageText 200 name)
    (hTags : ∀ tags ∈ pod.tags,
      parseInboxTags runtime (some (.array (tags.map .string))) = .ok tags) :
    (parseMessagePod runtime (some (podValue pod))).isOk = true := by
  have hRecord : messageRecord ["id", "name", "tags"] (some (podValue pod)) =
      .ok (podValue pod) := by
    cases hTag : pod.tags with
    | none => rw [podValue, hTag]; rfl
    | some tags => rw [podValue, hTag]; rfl
  have hIdField : (podValue pod).field? (js "id") = some (.string pod.id) := rfl
  have hNameField : (podValue pod).field? (js "name") =
      some (orNull .string pod.name) := rfl
  have hNameOk : (unlessNull (messageText 200)
      ((podValue pod).field? (js "name"))).isOk = true := by
    rw [hNameField]
    refine isOk_unlessNull_orNull fun name hMem => ⟨rfl, ?_⟩
    rw [messageText_of_is (hName name hMem)]
    rfl
  have hTagsOk : (unlessMissing (parseInboxTags runtime)
      ((podValue pod).field? (js "tags"))).isOk = true := by
    cases hTag : pod.tags with
    | none =>
        have hField : (podValue pod).field? (js "tags") = none := by
          rw [podValue, hTag]
          rfl
        rw [hField]
        rfl
    | some tags =>
        have hField : (podValue pod).field? (js "tags") =
            some (.array (tags.map .string)) := by
          rw [podValue, hTag]
          rfl
        rw [hField, unlessMissing, hTags tags hTag]
        rfl
  obtain ⟨name, hNameRead⟩ := isOk_iff.mp hNameOk
  obtain ⟨tags, hTagsRead⟩ := isOk_iff.mp hTagsOk
  rw [parseMessagePod, hRecord, ok_bind, hIdField, messageId_of_isUuid hId,
    ok_bind, hNameRead, ok_bind, hTagsRead]
  rfl

theorem isOk_parseMessageLink {link : InboxLink}
    (h : IsMessageLink runtime link) :
    (parseMessageLink runtime (linkValue link)).isOk = true := by
  obtain ⟨⟨url, hUrl, hProtocol, hUser, hPassword⟩, hLength, hTitle⟩ := h
  have hRecord : messageRecord ["title", "url"] (some (linkValue link)) =
      .ok (linkValue link) := rfl
  have hFound : linkUrl runtime (linkValue link) = some url := by
    rw [linkUrl_linkValue, if_pos hLength, hUrl]
  have hTitleField : (linkValue link).field? (js "title") =
      some (.string link.title) := rfl
  rw [parseMessageLink, hRecord, ok_bind, hFound]
  dsimp only
  rw [hProtocol, hUser, hPassword, if_neg (by simp), hTitleField,
    messageText_of_is hTitle]
  rfl

/-- The desktop reads a message of a presentable row that the driver reads. -/
theorem parse_message {position : JsString → Nat} {row : ItemRow}
    (h : Presentable runtime row) (hRead : isReadable position row = true) :
    ∃ received, parseInboxMessage runtime (messageValue (message row.item)) =
      .ok received ∧ received.id = row.id := by
  simp only [isReadable, Bool.and_eq_true] at hRead
  obtain ⟨⟨⟨⟨⟨-, hCreated⟩, -⟩, hReadAt⟩, hArchived⟩, -⟩ := hRead
  have hPod : (unlessNull (parseMessagePod runtime)
      (some (orNull podValue row.item.pod))).isOk = true := by
    refine isOk_unlessNull_orNull fun pod hMem => ⟨rfl, ?_⟩
    obtain ⟨id, hId, rfl⟩ := Option.map_eq_some_iff.mp hMem
    have hUuid := h.podId id (Option.filter_eq_some_iff.mp hId).1
    exact isOk_parseMessagePod hUuid h.podName h.podTags
  have hLinks : ((row.links.map linkValue).mapM
      (parseMessageLink runtime)).isOk = true := by
    rw [isOk_mapM, List.forall_mem_map]
    exact fun link hLink => isOk_parseMessageLink (h.links link hLink)
  have hItems : itemsUpTo 5 (some (.array (row.links.map linkValue))) =
      .ok (row.links.map linkValue) := by
    have hFew := Nat.not_lt.mpr h.fewLinks
    rw [itemsUpTo, List.length_map, if_neg hFew]
  have hRunId : (unlessNull messageId
      (some (orNull .string row.runId))).isOk = true := by
    refine isOk_unlessNull_orNull fun id hMem => ⟨rfl, ?_⟩
    rw [messageId_of_isUuid (h.runId id hMem)]
    rfl
  obtain ⟨pod, hPodRead⟩ := isOk_iff.mp hPod
  obtain ⟨links, hLinksRead⟩ := isOk_iff.mp hLinks
  obtain ⟨runId, hRunRead⟩ := isOk_iff.mp hRunId
  have hReadOk : (stamp true (some (orNull momentValue row.read))).isOk =
      true := isOk_stamp_orNull fun moment hMem =>
    isOk_stamp_moment ((Option.all_eq_true _ _).mp hReadAt moment hMem)
  have hArchivedOk : (stamp true
      (some (orNull momentValue row.archived))).isOk = true :=
    isOk_stamp_orNull fun moment hMem =>
      isOk_stamp_moment ((Option.all_eq_true _ _).mp hArchived moment hMem)
  obtain ⟨pod, hPodRead⟩ := isOk_iff.mp hPod
  obtain ⟨links, hLinksRead⟩ := isOk_iff.mp hLinks
  obtain ⟨runId, hRunRead⟩ := isOk_iff.mp hRunId
  obtain ⟨created, hCreatedRead⟩ :=
    isOk_iff.mp (@isOk_stamp_moment false _ hCreated)
  obtain ⟨readAt, hReadRead⟩ := isOk_iff.mp hReadOk
  obtain ⟨archived, hArchivedRead⟩ := isOk_iff.mp hArchivedOk
  refine ⟨⟨row.id, row.title, row.body, pod, runId, links, created, readAt,
    archived⟩, ?_, rfl⟩
  have hRecord : messageRecord ["id", "title", "body", "pod", "runId",
      "links", "created", "read", "archived"]
      (some (messageValue (message row.item))) =
      .ok (messageValue (message row.item)) := rfl
  have hPodField : (messageValue (message row.item)).field? (js "pod") =
      some (orNull podValue row.item.pod) := rfl
  have hLinksField : (messageValue (message row.item)).field? (js "links") =
      some (.array (row.links.map linkValue)) := rfl
  have hIdField : (messageValue (message row.item)).field? (js "id") =
      some (.string row.id) := rfl
  have hTitleField : (messageValue (message row.item)).field? (js "title") =
      some (.string row.title) := rfl
  have hBodyField : (messageValue (message row.item)).field? (js "body") =
      some (.string row.body) := rfl
  have hRunField : (messageValue (message row.item)).field? (js "runId") =
      some (orNull .string row.runId) := rfl
  have hCreatedField : (messageValue (message row.item)).field?
      (js "created") = some (momentValue row.created) := rfl
  have hReadField : (messageValue (message row.item)).field? (js "read") =
      some (orNull momentValue row.read) := rfl
  have hArchivedField : (messageValue (message row.item)).field?
      (js "archived") = some (orNull momentValue row.archived) := rfl
  rw [parseInboxMessage, hRecord, ok_bind, hPodField, hPodRead, ok_bind,
    hLinksField, hItems, ok_bind, hLinksRead, ok_bind, hIdField,
    messageId_of_isUuid h.id, ok_bind, hTitleField, messageText_of_is h.title,
    ok_bind, hBodyField, messageText_of_is h.body, ok_bind, hRunField,
    hRunRead, ok_bind, hCreatedField, hCreatedRead, ok_bind, hReadField,
    hReadRead, ok_bind, hArchivedField, hArchivedRead]
  rfl

/-- Messages that are read one by one keep their ids. -/
theorem parse_messages {position : JsString → Nat} {rows : List ItemRow}
    (h : ∀ row ∈ rows, Presentable runtime row ∧
      isReadable position row = true) :
    ∃ received, (rows.map fun row => messageValue (message row.item)).mapM
        (parseInboxMessage runtime) = .ok received ∧
      received.map ReceivedMessage.id = rows.map ItemRow.id := by
  induction rows with
  | nil => exact ⟨[], rfl, rfl⟩
  | cons row rows ih =>
      rw [List.forall_mem_cons] at h
      obtain ⟨first, hFirst, hId⟩ := parse_message h.1.1 h.1.2
      obtain ⟨rest, hRest, hIds⟩ := ih h.2
      refine ⟨first :: rest, ?_, by rw [List.map_cons, List.map_cons, hId, hIds]⟩
      rw [List.map_cons, mapM_cons, hFirst, ok_bind, hRest]
      rfl

/-- The desktop reads a page of presentable messages. -/
theorem isOk_parseInboxMessagePage {position : JsString → Nat} {db : Db}
    {owner : Owner} {archived : Bool} {before : Option Int}
    {found : InboxMessagePage}
    (hRows : ∀ row ∈ db.items.rows, row.kind = .message →
      row.deleted = none → Presentable runtime row)
    (h : messages position db owner archived before = some found) :
    (parseInboxMessagePage runtime (some (pageValue found))).isOk = true := by
  obtain ⟨listed, hList, rfl⟩ := Option.map_eq_some_iff.mp h
  rw [list] at hList
  split at hList
  case isFalse => cases hList
  rename_i hReadable
  obtain rfl := Option.some.inj hList
  set rows := selected position db owner
    { kind := some .message, archived := archived, before := before }
    with hSelected
  rw [List.all_eq_true] at hReadable
  have hMem : ∀ row ∈ rows, row ∈ db.items.rows ∧ row.kind = .message ∧
      row.deleted = none := by
    intro row hRow
    have hSorted := List.mem_of_mem_take hRow
    rw [List.mem_insertionSort, List.mem_filter, decide_eq_true_eq] at hSorted
    obtain ⟨hStored, -, hKept, -, hKind, -⟩ := hSorted
    refine ⟨hStored, ?_, hKept⟩
    rcases hKind with hNone | hSome
    · cases hNone
    · exact (Option.some.inj hSome).symm
  have hNodup : (rows.map ItemRow.id).Nodup := by
    have hSub := (List.take_sublist (page + 1)
      (((db.items.rows.filter fun row => row.owner = ownerKey owner ∧
        row.deleted = none ∧ (position row.id : Int) < beforeOf before ∧
        (some InboxKind.message = none ∨
          some InboxKind.message = some row.kind) ∧
        row.archived.isSome = archived).insertionSort
      fun a b => position b.id ≤ position a.id))).map ItemRow.id
    refine hSub.nodup ?_
    rw [((List.perm_insertionSort _ _).map ItemRow.id).nodup_iff]
    exact (List.filter_sublist.map ItemRow.id).nodup db.items.nodup
  obtain ⟨received, hReceived, hIds⟩ := @parse_messages runtime position
    (rows.take page) fun row hRow => by
      have hRow := List.mem_of_mem_take hRow
      obtain ⟨hStored, hKind, hKept⟩ := hMem row hRow
      exact ⟨hRows row hStored hKind hKept, hReadable row hRow⟩
  generalize hNext : (if page < rows.length then
    (rows.take page).getLast?.map fun row => position row.id else none) = next
  have hNextOk : (stamp true (some (orNull natValue next))).isOk = true := by
    refine isOk_stamp_orNull fun n hn => isOk_stamp_natValue ?_
    rw [← hNext] at hn
    split at hn
    · obtain ⟨row, hLast, rfl⟩ := Option.map_eq_some_iff.mp hn
      have hRow := hReadable row
        (List.mem_of_mem_take (List.mem_of_getLast? hLast))
      simp only [isReadable, Bool.and_eq_true] at hRow
      have hSafe := of_decide_eq_true hRow.1.1.1.1.1
      omega
    · cases hn
  have hItems : itemsUpTo 50 (some (.array
      ((rows.take page).map fun row => messageValue (message row.item)))) =
      .ok ((rows.take page).map fun row =>
        messageValue (message row.item)) := by
    refine if_neg ?_
    rw [List.length_map, List.length_take]
    exact Nat.not_lt.mpr (Nat.min_le_left _ _)
  have hDistinct : (received.map ReceivedMessage.id).Nodup := by
    rw [hIds]
    exact ((List.take_sublist page rows).map ItemRow.id).nodup hNodup
  obtain ⟨stamped, hStamped⟩ := isOk_iff.mp hNextOk
  have hRecord : ∀ value : InboxMessagePage,
      messageRecord ["messages", "next"] (some (pageValue value)) =
        .ok (pageValue value) := fun _ => rfl
  have hMessages : ∀ value : InboxMessagePage,
      (pageValue value).field? (js "messages") =
        some (.array (value.messages.map messageValue)) := fun _ => rfl
  have hNextField : ∀ value : InboxMessagePage,
      (pageValue value).field? (js "next") =
        some (orNull natValue value.next) := fun _ => rfl
  rw [parseInboxMessagePage, hRecord, ok_bind, hMessages, hNextField]
  dsimp only
  rw [List.map_map, List.map_map]
  change (itemsUpTo 50 (some (.array ((rows.take page).map fun row =>
    messageValue (message row.item)))) >>= _).isOk = true
  rw [hItems, ok_bind, hReceived, ok_bind, decide_eq_true hDistinct, hStamped]
  rfl

end Reading

/-! ## Publications that the desktop reads -/

/-- What the relay does not check as the desktop does: the form of the ids, the
bytes of the link titles and the length of the normalised links. -/
structure Fitting (publication : InboxPublication) : Prop where
  podId : ∀ id ∈ publication.podId, isUuid id = true
  runId : ∀ id ∈ publication.runId, isUuid id = true
  titles : ∀ link ∈ publication.links, byteLength link.title ≤ 200
  urls : ∀ link ∈ publication.links, link.url.length ≤ 2048

section Publications

variable {runtime : TextRuntime}

theorem relayText_eq_ok {value : JsonValue} {field : String} {maximum : Nat}
    {text : JsString} (h : relayText value field maximum = .ok text) :
    IsMessageText maximum text := by
  rw [relayText] at h
  split at h
  · split at h
    · cases h
    rename_i hBlank
    split at h
    · cases h
    rename_i hLong
    cases h
    exact ⟨Bool.not_eq_true _ ▸ hBlank, Nat.not_lt.mp hLong⟩
  · cases h

/-- Items of which none differs from its tag are texts. -/
theorem texts_of_someDiffers {items : List JsonValue}
    (h : someDiffers runtime items = .ok false) :
    (items.filterMap JsonValue.text?).map JsonValue.string = items := by
  induction items with
  | nil => rfl
  | cons item items ih =>
      obtain ⟨tag, -, hRest⟩ := bind_eq_ok.mp h
      split at hRest
      · rename_i hText
        obtain rfl := Option.some.inj (isText_iff.mp hText)
        have hSame := ih hRest
        rw [List.filterMap_cons]
        dsimp only [JsonValue.text?]
        rw [List.map_cons, hSame]
      · cases hRest

/-- Tags that are accepted are accepted again. -/
theorem parseInboxTags_again {value : Unknown} {tags : List JsString}
    (h : parseInboxTags runtime value = .ok tags) :
    parseInboxTags runtime (some (.array (tags.map .string))) = .ok tags := by
  have hAgain := h
  unfold parseInboxTags at h
  split at h
  case h_2 => cases h
  case h_1 items =>
    obtain ⟨_, -, h⟩ := bind_eq_ok.mp h
    obtain ⟨differs, hDiffers, h⟩ := bind_eq_ok.mp h
    obtain ⟨_, hSame, h⟩ := bind_eq_ok.mp h
    obtain rfl := throwIf_eq_ok.mp hSame
    cases h
    rw [texts_of_someDiffers hDiffers]
    exact hAgain

/-- A publication that the relay accepts and that fits is presentable once it
is stored. -/
theorem presentable_of_publication (hLawful : Lawful runtime)
    {store : InboxRuntime} {now : Clock} {id owner runtimeId : JsString}
    {sequence : Nat} {input : Unknown} {publication : InboxPublication}
    (hParse : parsePublication runtime input = .ok publication)
    (hFits : Fitting publication) (hId : isUuid id = true) :
    Presentable runtime
      (messageRow store now id owner runtimeId publication sequence) := by
  obtain ⟨value, -, h⟩ := bind_eq_ok.mp hParse
  obtain ⟨_, -, h⟩ := bind_eq_ok.mp h
  obtain ⟨eventId, -, h⟩ := bind_eq_ok.mp h
  obtain ⟨_, -, h⟩ := bind_eq_ok.mp h
  obtain ⟨items, hItems, h⟩ := bind_eq_ok.mp h
  obtain ⟨links, hLinks, h⟩ := bind_eq_ok.mp h
  obtain ⟨podId, -, h⟩ := bind_eq_ok.mp h
  obtain ⟨runId, -, h⟩ := bind_eq_ok.mp h
  obtain ⟨podTags, hTags, h⟩ := bind_eq_ok.mp h
  obtain ⟨title, hTitle, h⟩ := bind_eq_ok.mp h
  obtain ⟨body, hBody, h⟩ := bind_eq_ok.mp h
  obtain ⟨podName, hName, h⟩ := bind_eq_ok.mp h
  cases h
  have hEach := mapM_eq_ok.mp hLinks
  refine ⟨hId, relayText_eq_ok hTitle, relayText_eq_ok hBody, hFits.podId, ?_,
    ?_, hFits.runId, ?_, ?_⟩
  · intro name hMem
    rw [relayOptionalText] at hName
    split at hName
    · cases hName
      cases hMem
    · obtain ⟨raw, hRaw, hSome⟩ := bind_eq_ok.mp hName
      cases hSome
      cases hMem
      exact relayText_eq_ok hRaw
  · intro tags hMem
    obtain ⟨hSome, -⟩ := Option.filter_eq_some_iff.mp hMem
    obtain rfl : podTags = some tags := hSome
    rw [relayTags] at hTags
    split at hTags
    · cases hTags
    · split at hTags
      · rename_i parsed hParsed
        cases hTags
        exact parseInboxTags_again hParsed
      · cases hTags
  · change links.length ≤ 5
    rw [← hEach.length_eq]
    exact (linkItems_eq_ok.mp hItems).1
  · intro link hLink
    obtain ⟨item, -, hItem⟩ := exists_of_mem_mapM hLinks hLink
    obtain ⟨url, hUrl, -, hProtocol, hUser, hPassword, hBlank, -, hHref⟩ :=
      parseLink_eq_ok.mp hItem
    refine ⟨⟨url, ?_, hProtocol, hUser, hPassword⟩, hFits.urls link hLink,
      hBlank, hFits.titles link hLink⟩
    rw [linkUrl] at hUrl
    split at hUrl
    · split_ifs at hUrl
      rw [← hHref]
      exact hLawful.reparse _ _ hUrl
    · cases hUrl

end Publications

/-! ## Runs -/

/-- Every message of the store is presentable. -/
def Presented (runtime : TextRuntime) (db : Db) : Prop :=
  ∀ row ∈ db.items.rows, row.kind = .message → row.deleted = none →
    Presentable runtime row

/-- A call that stores only publications that the relay has accepted and that
fit, under ids that `randomUUID` draws. -/
def Accepted (runtime : TextRuntime) (turn : Turn) : Prop :=
  match turn.call with
  | .publish _ _ publication =>
      (∃ input, parsePublication runtime input = .ok publication) ∧
        Fitting publication ∧ ∀ i, isUuid (turn.ids i) = true
  | _ => True

section Runs

variable {runtime : TextRuntime} {store : InboxRuntime} {db db' : Db}

theorem presented_insert {row : ItemRow} {items : Items}
    (hInsert : db.items.insert? row = some items)
    (hRow : row.kind = .message → Presentable runtime row)
    (h : Presented runtime db) {n : Nat} :
    Presented runtime { db with sequence := n, items := items } := by
  intro other hOther hKind hKept
  rw [(Rows.insert?_eq_some.mp hInsert).2, List.mem_append,
    List.mem_singleton] at hOther
  rcases hOther with hOther | rfl
  · exact h other hOther hKind hKept
  · exact hRow hKind

/-- A change of one item, which keeps what is said about it. -/
theorem presented_changeItem {id : JsString} {f : ItemRow → ItemRow}
    {hf : ∀ row, (f row).id = row.id}
    {hEvent : ∀ row, (f row).event = row.event} (h : Presented runtime db)
    (hItem : ∀ row ∈ db.items.rows, row.id = id → (f row).kind = .message →
      (f row).deleted = none → Presentable runtime (f row)) :
    Presented runtime (Db.changeItem db id f hf hEvent) := by
  intro row hRow hKind hKept
  obtain ⟨old, hOld, rfl⟩ := mem_changeItem.mp hRow
  split at hKind
  · rename_i hId
    rw [if_pos hId] at hKept ⊢
    exact hItem old hOld hId hKind hKept
  · rename_i hId
    rw [if_neg hId] at hKept ⊢
    exact h old hOld hKind hKept

theorem presented_publish {now : Clock} {ids : Draws} {owner : Owner}
    {runtimeId : JsString} {publication : InboxPublication}
    {receipt : Receipt} (h : Presented runtime db)
    (hRow : ∀ sequence, Presentable runtime (messageRow store now (ids 0)
      (ownerKey owner) runtimeId publication sequence))
    (hRun : Returns (publish store now ids owner runtimeId publication) db
      receipt db') : Presented runtime db' := by
  rw [publish, returns_transaction, returns_query_bind] at hRun
  obtain ⟨existing, -, hRun⟩ := hRun
  cases existing with
  | some existing =>
      rw [publishUnless, returns_check_bind] at hRun
      obtain ⟨_, -, hRun⟩ := hRun
      rw [(returns_pure.mp hRun).2]
      exact h
  | none =>
      rw [publishUnless, publishNew, returns_query_bind] at hRun
      obtain ⟨_, -, hRun⟩ := hRun
      rw [returns_nextSequence_bind, returns_insertItem_bind] at hRun
      obtain ⟨items, hInsert, hRun⟩ := hRun
      rw [returns_insertOutbox_bind] at hRun
      rw [(returns_pure.mp hRun.2).2]
      exact presented_insert (n := db.sequence + 1) hInsert (fun _ => hRow _) h

theorem presented_syncDecision {now : Clock} {ids : Draws}
    {owner runtimeId : JsString} {decision : InboxDecision}
    {counts counts' : SyncCounts} (h : Presented runtime db)
    (hRun : Returns
      (syncDecision store now ids owner runtimeId decision counts) db counts'
      db') : Presented runtime db' := by
  rw [syncDecision, returns_query_bind] at hRun
  obtain ⟨existing, hExisting, hRun⟩ := hRun
  obtain rfl := Except.ok.inj hExisting
  cases hStored : storedDecision db owner runtimeId decision.sourceId with
  | some existing =>
      rw [hStored] at hRun
      dsimp only at hRun
      unfold updateDecision at hRun
      split_ifs at hRun with hSame
      · rw [(returns_pure.mp hRun).2]
        exact h
      · rw [returns_nextSequence_bind, updateItem, returns_write_bind] at hRun
        rw [(returns_pure.mp hRun).2]
        refine presented_changeItem h fun row hRow hId hKind _ => ?_
        -- the item of a stored decision is a decision
        obtain ⟨hFound, hDecision⟩ := Option.filter_eq_some_iff.mp hStored
        have hExists := (Rows.byOther?_eq_some_iff.mp hFound).1
        have hSameRow := Rows.eq_of_key hRow hExists hId
        have hMessage : row.kind = .message := hKind
        rw [hSameRow, of_decide_eq_true hDecision] at hMessage
        cases hMessage
  | none =>
      rw [hStored] at hRun
      dsimp only at hRun
      rw [returns_query_bind] at hRun
      obtain ⟨full, -, hRun⟩ := hRun
      unfold createDecision at hRun
      split_ifs at hRun
      · rw [(returns_pure.mp hRun).2]
        exact h
      · rw [returns_nextSequence_bind, returns_insertItem_bind] at hRun
        obtain ⟨items, hInsert, hRun⟩ := hRun
        rw [returns_insertOutbox_bind] at hRun
        rw [(returns_pure.mp hRun.2).2]
        exact presented_insert (n := db.sequence + 1) hInsert
          (fun hKind => by cases hKind) h

theorem presented_syncLoop {now : Clock} {ids : Draws}
    {owner runtimeId : JsString} {decisions : List InboxDecision}
    {counts counts' : SyncCounts} (h : Presented runtime db)
    (hRun : Returns (syncLoop store owner runtimeId now ids decisions counts)
      db counts' db') : Presented runtime db' := by
  induction decisions generalizing now ids db counts with
  | nil =>
      rw [(returns_pure.mp hRun).2]
      exact h
  | cons decision decisions ih =>
      obtain ⟨counts₁, db₁, hFirst, hRest⟩ := returns_bind.mp hRun
      exact ih (presented_syncDecision h hFirst) hRest

theorem presented_resolveDecision {row : ItemRow} {u : Unit}
    (h : Presented runtime db)
    (hRun : Returns (resolveDecision row) db u db') :
    Presented runtime db' := by
  rw [resolveDecision, returns_nextSequence_bind, updateItem,
    returns_write_bind] at hRun
  rw [returns_write.mp hRun]
  refine @presented_changeItem runtime db row.id _ (ItemRow.resolve_id _)
    (ItemRow.resolve_event _) h fun old hOld _ hKind hKept => ?_
  obtain ⟨hId, hTitle, hBody, hPod, hName, hTags, hRunId, hFew, hLinks⟩ :=
    h old hOld hKind hKept
  exact ⟨hId, hTitle, hBody, hPod, hName, hTags, hRunId, hFew, hLinks⟩

theorem presented_deleteItem {moment : Time} {itemId : JsString} {u : Unit}
    (h : Presented runtime db)
    (hRun : Returns (deleteItem moment itemId) db u db') :
    Presented runtime db' := by
  rw [deleteItem, returns_nextSequence_bind] at hRun
  rw [returns_write.mp hRun]
  exact presented_changeItem h fun _ _ _ _ hKept =>
    absurd hKept (Option.some_ne_none _)

theorem presented_markItem {moment : Time} {owner : Owner} {itemId : JsString}
    {change : MarkChange} {answer : Option InboxItem}
    (h : Presented runtime db)
    (hRun : Returns (markItem moment owner itemId change) db answer db') :
    Presented runtime db' := by
  unfold markItem at hRun
  split_ifs at hRun
  · obtain ⟨_, db₁, hDelete, hRun⟩ := returns_bind.mp hRun
    rw [dropPending, returns_write_bind] at hRun
    rw [(returns_pure.mp hRun).2]
    have hDeleted := presented_deleteItem h hDelete
    exact fun row hRow => hDeleted row hRow
  · obtain ⟨_, db₁, hFlag, hRun⟩ := returns_bind.mp hRun
    rw [returns_query_bind] at hRun
    obtain ⟨_, -, hRun⟩ := hRun
    rw [(returns_pure.mp hRun).2]
    unfold flagItem at hFlag
    split_ifs at hFlag
    · rw [(returns_pure.mp hFlag).2]
      exact h
    · rw [returns_nextSequence_bind] at hFlag
      rw [returns_write.mp hFlag]
      refine presented_changeItem h fun old hOld _ hKind hKept => ?_
      obtain ⟨hId, hTitle, hBody, hPod, hName, hTags, hRunId, hFew, hLinks⟩ :=
        h old hOld hKind hKept
      exact ⟨hId, hTitle, hBody, hPod, hName, hTags, hRunId, hFew, hLinks⟩

theorem presented_retain {now : Clock} {counts : RetainCounts}
    (h : Presented runtime db) (hRun : Returns (retain now) db counts db') :
    Presented runtime db' := by
  rw [retain, returns_transaction, returns_query_bind] at hRun
  obtain ⟨rows, -, hRun⟩ := hRun
  obtain ⟨_, db₁, hDelete, hRun⟩ := returns_bind.mp hRun
  obtain ⟨_, db₂, hDrop, hRun⟩ := returns_bind.mp hRun
  rw [returns_query_bind] at hRun
  obtain ⟨purged, -, hRun⟩ := hRun
  rw [purge, returns_write_bind] at hRun
  rw [(returns_pure.mp hRun).2]
  have hDeleted : Presented runtime db₁ :=
    returns_each (Presented runtime) hDelete h
      fun _ _ _ _ hBefore hOne => presented_deleteItem hBefore hOne
  rw [returns_write.mp hDrop]
  intro row hRow
  exact hDeleted row (List.mem_of_mem_filter hRow)

/-- A turn that stores nothing else keeps the messages presentable. -/
theorem presented_turn (hLawful : Lawful runtime) {turn : Turn}
    (hTurn : Accepted runtime turn) (h : Presented runtime db) :
    Presented runtime (inbox store turn db).2 := by
  rcases outcome store turn db with ⟨answer, db', hReturns, hRun⟩ |
    ⟨e, hRun⟩
  case inr => rw [hRun]; exact h
  rw [hRun]
  unfold perform at hReturns
  rw [Accepted] at hTurn
  cases hCall : turn.call with
  | «publish» owner runtimeId publication =>
      rw [hCall] at hReturns hTurn
      obtain ⟨_, hPublish, -⟩ := returns_answering.mp hReturns
      obtain ⟨⟨input, hParse⟩, hFits, hIds⟩ := hTurn
      exact presented_publish h (fun sequence =>
        presentable_of_publication hLawful hParse hFits (hIds 0)) hPublish
  | syncDecisions owner runtimeId decisions =>
      rw [hCall] at hReturns
      obtain ⟨_, hSync, -⟩ := returns_answering.mp hReturns
      rw [syncDecisions, returns_transaction] at hSync
      obtain ⟨counts₁, db₁, hLoop, hSync⟩ := returns_bind.mp hSync
      rw [returns_query_bind] at hSync
      obtain ⟨rows, -, hSync⟩ := hSync
      obtain ⟨_, db₂, hResolve, hSync⟩ := returns_bind.mp hSync
      rw [(returns_pure.mp hSync).2]
      exact returns_each (Presented runtime) hResolve
        (presented_syncLoop h hLoop)
        fun _ _ _ _ hBefore hOne => presented_resolveDecision hBefore hOne
  | mark owner itemId change =>
      rw [hCall] at hReturns
      obtain ⟨_, hMark, -⟩ := returns_answering.mp hReturns
      rw [mark, returns_transaction, returns_query_bind] at hMark
      obtain ⟨_, -, hMark⟩ := hMark
      exact presented_markItem h hMark
  | retain =>
      rw [hCall] at hReturns
      obtain ⟨_, hRetain, -⟩ := returns_answering.mp hReturns
      exact presented_retain h hRetain
  | claimOutbox limit messagesOnly =>
      rw [hCall] at hReturns
      rw [(returns_query.mp hReturns).2]
      exact h
  | decisionPushBatches limit =>
      rw [hCall] at hReturns
      rw [(returns_query.mp hReturns).2]
      exact h
  | settleOutbox entryIds outcome =>
      rw [hCall] at hReturns
      obtain ⟨_, hSettle, -⟩ := returns_answering.mp hReturns
      rw [settleOutbox, returns_transaction] at hSettle
      refine returns_each (Presented runtime) hSettle h
        fun _ _ _ _ hBefore hOne => ?_
      rw [returns_write.mp hOne]
      exact hBefore

end Runs

/-! ## Sample -/

/-- A publication of a Pod with this id and one link. -/
def sampleInput (podId : JsString) : Unknown :=
  some (.object [(js "eventId", .string (js "report:1")),
    (js "kind", .string (js "message")), (js "title", .string (js "Report")),
    (js "body", .string (js "Done.")), (js "podId", .string podId),
    (js "links", .array [.object [(js "title", .string (js "Report")),
      (js "url", .string (js "https://example.com"))]])])

def sampleStored (podId : JsString) : InboxPublication where
  eventId := js "report:1"
  title := js "Report"
  body := js "Done."
  podId := some podId
  podName := none
  podTags := none
  runId := none
  links := [{ title := js "Report", url := js "https://example.com/" }]

def sampleUuid : JsString := js "01234567-89ab-cdef-0123-456789abcdef"

/-- The run that stores the publication of this Pod and marks it as read. -/
def sampleTurns (podId : JsString) : List Turn :=
  [⟨.publish sampleOwner (js "runtime") (sampleStored podId), sampleClock,
      fun _ => sampleUuid⟩,
    ⟨.mark sampleOwner sampleUuid { read := some true }, sampleClock,
      fun _ => sampleUuid⟩]

def samplePage (podId : JsString) : Option InboxMessagePage :=
  messages (fun _ => 1)
    (run (inbox InboxRuns.sampleRuntime) (sampleTurns podId) {}) sampleOwner
    false none

theorem accepted_sample :
    Reached (inbox InboxRuns.sampleRuntime)
      (fun _ turn => Accepted sampleRuntime turn) {}
      (run (inbox InboxRuns.sampleRuntime) (sampleTurns sampleUuid) {}) := by
  refine .turn (.turn .refl _ ⟨⟨sampleInput sampleUuid, rfl⟩, ?_, ?_⟩) _ trivial
  · have hPod : isUuid sampleUuid = true := by decide
    have hLinks : ∀ link ∈ (sampleStored sampleUuid).links,
        byteLength link.title ≤ 200 ∧ link.url.length ≤ 2048 := by
      decide
    exact ⟨fun id hId => Option.some.inj hId ▸ hPod,
      fun _ hId => (nomatch hId), fun link hLink => (hLinks link hLink).1,
      fun link hLink => (hLinks link hLink).2⟩
  · have hDraw : isUuid sampleUuid = true := by decide
    exact fun _ => hDraw

end OpenApe.Ports.InboxMessages
