import OpenApe.Verified.CodePoints
import OpenApe.Verified.Fallible
import OpenApe.Verified.LineBuffer
import OpenApe.Verified.Utf8Stream

/-!
# A streamed reply (`packages/agent-runtime/src/agent-runtime.ts`)

`aggregateChatStream` reads a reply as server-sent events, piece by piece, and
folds their deltas into one message.  Decoder and line buffer make the pieces
indifferent (`aggregateChatStream_cut`).  What is left in the buffer at the
end is not looked at, and the tool calls stand in the order in which their
indexes were first mentioned; `aggregates_iff` says when the message is still
that of all events, in index order.
-/

namespace OpenApe.Ports.ChatStream

open Verified.JsText Verified.Json Verified.Fallible Verified.LineBuffer
open Verified.CodePoints (encodePoint)
open Verified.Unicode (codePoints)
open Verified.Utf8 (pointUnits utf8)
open Verified.Utf8Stream (Decoder decodeText decodeText_eq flush
  replacement feed_append)

/-! ## The source -/

/-- What the language brings along. -/
structure Runtime where
  /-- `JSON.parse(payload)`, none where it throws. -/
  parse : JsString → Option JsonValue
  /-- `String(value)` -/
  text : JsonValue → JsString
  /-- `a < b` -/
  less : JsonNumber → JsonNumber → Bool

variable (rt : Runtime)

/-- `if (value)` -/
def truthy : Option JsonValue → Bool
  | none | some .null => false
  | some (.bool b) => b
  | some (.number n) => decide (n.text ≠ js "0")
  | some (.string text) => decide (text ≠ [])
  | some (.array _) | some (.object _) => true

/-- `value || undefined` -/
def given (value : Option JsonValue) : Option JsonValue :=
  if truthy value then value else none

/-- `value[0]` -/
def first? : JsonValue → Option JsonValue
  | .array items => items.head?
  | .string text => text.head?.map fun u => .string [u]
  | .object members => JsonValue.field? (.object members) (js "0")
  | _ => none

/-- `for (const item of value)` -/
def iterate : JsonValue → Except JsString (List JsonValue)
  | .array items => .ok items
  | .string text => .ok ((codePoints text).map fun c => .string (encodePoint c))
  | _ => .error (js "delta.tool_calls is not iterable")

structure ToolCall where
  id : JsonValue
  name : JsonValue
  arguments : JsString

def ToolCall.empty : ToolCall := ⟨.string [], .string [], []⟩

/-- What one entry of `tool_calls` adds. -/
structure CallDelta where
  index : JsonValue
  id : Option JsonValue
  name : Option JsonValue
  arguments : JsString

def zero : JsonValue := .number (JsonNumber.ofNat 0)

/-- `tc.index ?? 0` -/
def indexOf (tc : JsonValue) : JsonValue :=
  match tc.field? (js "index") with
  | none | some .null => zero
  | some index => index

def callDelta (tc : JsonValue) : Except JsString CallDelta :=
  match tc with
  | .null => .error (js "Cannot read properties of null (reading 'index')")
  | tc =>
      let function := tc.field? (js "function")
      .ok
        { index := indexOf tc
          id := given (tc.field? (js "id"))
          name := given (function.bind (·.field? (js "name")))
          arguments :=
            ((given (function.bind (·.field? (js "arguments")))).map
              rt.text).getD [] }

/-- What one event adds. -/
structure Delta where
  content : JsString
  calls : List CallDelta
  finishReason : Option JsonValue

/-- The deltas of `choices[0]`; nothing is kept of a call that throws. -/
def deltaOf (chunk : JsonValue) : Except JsString Delta :=
  match chunk with
  | .null => .error (js "Cannot read properties of null (reading 'choices')")
  | chunk => do
      let ch0 := (chunk.field? (js "choices")).bind first?
      let delta := ch0.bind (·.field? (js "delta"))
      let toolCalls := delta.bind (·.field? (js "tool_calls"))
      let items ← match given toolCalls with
        | none => pure []
        | some calls => iterate calls
      let calls ← items.mapM (callDelta rt)
      return {
        content := ((given (delta.bind (·.field? (js "content")))).map
          rt.text).getD []
        calls := calls
        finishReason := given (ch0.bind (·.field? (js "finish_reason"))) }

/-- The keys of a `Map` are the same: arrays and objects never are. -/
def sameIndex (a b : JsonValue) : Bool :=
  match a with
  | .array _ | .object _ => false
  | a => decide (stringify a = stringify b)

/-- `existing` with what a delta brings. -/
def ToolCall.add (call : ToolCall) (d : CallDelta) : ToolCall :=
  ⟨d.id.getD call.id, d.name.getD call.name, call.arguments ++ d.arguments⟩

/-- `toolCalls.set(idx, existing)` -/
def setCall (calls : List (JsonValue × ToolCall)) (d : CallDelta) :
    List (JsonValue × ToolCall) :=
  if calls.any (fun entry => sameIndex entry.1 d.index) then
    calls.map fun entry =>
      if sameIndex entry.1 d.index then (entry.1, entry.2.add d) else entry
  else calls ++ [(d.index, ToolCall.empty.add d)]

/-- What is carried over the events. -/
structure Aggregate where
  content : JsString
  calls : List (JsonValue × ToolCall)
  finishReason : Option JsonValue

def Aggregate.initial : Aggregate := ⟨[], [], none⟩

def Aggregate.add (agg : Aggregate) (d : Delta) : Aggregate :=
  ⟨agg.content ++ d.content, d.calls.foldl setCall agg.calls,
    d.finishReason.or agg.finishReason⟩

/-- The event of a line. -/
def event? (line : JsString) : Option JsonValue :=
  let line := trim line
  if (js "data:").isPrefixOf line then
    let payload := trim (line.drop 5)
    if payload = [] ∨ payload = js "[DONE]" then none else rt.parse payload
  else none

/-- One line. -/
def onLine (agg : Aggregate) (line : JsString) : Except JsString Aggregate :=
  match event? rt line with
  | none => .ok agg
  | some chunk => do return agg.add (← deltaOf rt chunk)

/-- What is carried over the pieces. -/
structure Reader where
  decoder : Decoder
  buf : JsString
  agg : Aggregate

/-- One piece of the body. -/
def onValue (s : Reader) (value : List UInt8) : Except JsString Reader := do
  let read := s.decoder.feed value
  let (agg, buf) ← feed (unit '\n') (onLine rt) (s.agg, s.buf)
    (read.2.flatMap pointUnits)
  return ⟨read.1, buf, agg⟩

/-- The loop over the body. -/
def aggregate (values : List (List UInt8)) : Except JsString Aggregate := do
  let s ← values.foldlM (onValue rt) ⟨Decoder.initial, [], Aggregate.initial⟩
  return s.agg

/-- The assistant's message, with the reason why the model stopped. -/
structure Reply where
  content : Option JsString
  toolCalls : Option (List ToolCall)
  finishReason : Option JsonValue

def Aggregate.reply (agg : Aggregate) : Reply where
  content := if agg.content = [] then none else some agg.content
  toolCalls := if agg.calls = [] then none else some (agg.calls.map Prod.snd)
  finishReason := agg.finishReason

def aggregateChatStream (values : List (List UInt8)) :
    Except JsString Reply := do
  return (← aggregate rt values).reply

/-! ## The message of all events -/

/-- The delta belongs to the call that the group is about. -/
def inGroup (d : CallDelta) (group : List CallDelta) : Bool :=
  group.head?.any fun first => sameIndex first.index d.index

def addToGroups (groups : List (List CallDelta)) (d : CallDelta) :
    List (List CallDelta) :=
  if groups.any (inGroup d) then
    groups.map fun group => if inGroup d group then group ++ [d] else group
  else groups ++ [[d]]

/-- The deltas by their index, each group where its index is first
mentioned. -/
def groupsOf (deltas : List CallDelta) : List (List CallDelta) :=
  deltas.foldl addToGroups []

/-- One call: the last id and name, and all arguments. -/
def callOf (group : List CallDelta) : ToolCall where
  id := (group.filterMap CallDelta.id).getLast?.getD (.string [])
  name := (group.filterMap CallDelta.name).getLast?.getD (.string [])
  arguments := group.flatMap CallDelta.arguments

def entryOf (group : List CallDelta) : JsonValue × ToolCall :=
  ((group.head?.map CallDelta.index).getD zero, callOf group)

/-- The deltas put together. -/
def assemble (deltas : List Delta) : Aggregate where
  content := deltas.flatMap Delta.content
  calls := (groupsOf (deltas.flatMap Delta.calls)).map entryOf
  finishReason := (deltas.filterMap Delta.finishReason).getLast?

/-- The message of a list of events. -/
def messageOf (events : List JsonValue) : Except JsString Aggregate := do
  return assemble (← events.mapM (deltaOf rt))

/-- The lines of the whole text; the last one may be unfinished. -/
def linesOf (bytes : List UInt8) : List JsString :=
  (decodeText bytes).splitOn (unit '\n')

/-- The events of all lines. -/
def eventsOf (bytes : List UInt8) : List JsonValue :=
  (linesOf bytes).filterMap (event? rt)

/-- The events of the lines that are finished. -/
def finishedEvents (bytes : List UInt8) : List JsonValue :=
  (linesOf bytes).dropLast.filterMap (event? rt)

/-- The order of numbers; other indexes have none. -/
def before (a b : JsonValue) : Bool :=
  match a, b with
  | .number a, .number b => rt.less a b
  | _, _ => false

/-- However the bytes are cut, the message is that of all events, and its
calls stand in the order of their indexes. -/
structure Aggregates (bytes : List UInt8) : Prop where
  folded : ∀ values, values.flatten = bytes →
    aggregate rt values = messageOf rt (eventsOf rt bytes)
  inOrder : ∀ values agg, values.flatten = bytes →
    aggregate rt values = .ok agg →
    agg.calls.Pairwise fun a b => before rt b.1 a.1 = false

/-- What follows the last line break is no event, or one that would change
nothing. -/
def EndsQuietly (bytes : List UInt8) : Prop :=
  ∀ chunk, (linesOf bytes).getLast?.bind (event? rt) = some chunk →
    messageOf rt (finishedEvents rt bytes ++ [chunk]) =
      messageOf rt (finishedEvents rt bytes)

/-- The indexes, each where it is first mentioned. -/
def firstMentions (deltas : List CallDelta) : List JsonValue :=
  deltas.foldl (fun seen d =>
    if seen.any (fun index => sameIndex index d.index) then seen
    else seen ++ [d.index]) []

/-- Indexes are first mentioned in their order. -/
def MentionsInOrder (bytes : List UInt8) : Prop :=
  ∀ deltas, (finishedEvents rt bytes).mapM (deltaOf rt) = .ok deltas →
    (firstMentions (deltas.flatMap Delta.calls)).Pairwise
      fun a b => before rt b a = false

/-! ## Groups -/

/-- A group is not empty. -/
theorem ne_nil_of_mem_groupsOf {deltas : List CallDelta}
    {group : List CallDelta} (h : group ∈ groupsOf deltas) : group ≠ [] := by
  induction deltas using List.reverseRecOn generalizing group with
  | nil => cases h
  | append_singleton deltas d ih =>
      rw [groupsOf, List.foldl_append, List.foldl_cons, List.foldl_nil,
        ← groupsOf, addToGroups] at h
      split at h
      · obtain ⟨old, hOld, hGroup⟩ := List.mem_map.mp h
        split at hGroup
        · rw [← hGroup]
          exact List.append_ne_nil_of_right_ne_nil _ (List.cons_ne_nil _ _)
        · rw [← hGroup]
          exact ih hOld
      · rcases List.mem_append.mp h with hOld | hNew
        · exact ih hOld
        · rw [List.mem_singleton.mp hNew]
          exact List.cons_ne_nil _ _

theorem callOf_append (group : List CallDelta) (d : CallDelta) :
    callOf (group ++ [d]) = (callOf group).add d := by
  unfold callOf ToolCall.add
  congr 1
  · rw [List.filterMap_append]
    cases hId : d.id with
    | none => simp [hId]
    | some id => simp [hId]
  · rw [List.filterMap_append]
    cases hName : d.name with
    | none => simp [hName]
    | some name => simp [hName]
  · rw [List.flatMap_append]
    simp

theorem callOf_singleton (d : CallDelta) :
    callOf [d] = ToolCall.empty.add d := callOf_append [] d

/-- The entries of the map are those of the groups. -/
theorem setCall_entryOf {groups : List (List CallDelta)}
    (h : ∀ group ∈ groups, group ≠ []) (d : CallDelta) :
    setCall (groups.map entryOf) d = (addToGroups groups d).map entryOf := by
  have hSame : ∀ group ∈ groups,
      sameIndex (entryOf group).1 d.index = inGroup d group := by
    intro group hMem
    obtain ⟨first, rest, rfl⟩ := List.exists_cons_of_ne_nil (h group hMem)
    rfl
  have hAny : (groups.map entryOf).any
      (fun entry => sameIndex entry.1 d.index) = groups.any (inGroup d) := by
    rw [List.any_map, Bool.eq_iff_iff, List.any_eq_true, List.any_eq_true]
    refine exists_congr fun group => and_congr_right fun hMem => ?_
    rw [Function.comp_apply, hSame group hMem]
  unfold setCall addToGroups
  rw [hAny]
  split
  · rw [List.map_map, List.map_map]
    refine List.map_congr_left fun group hMem => ?_
    rw [Function.comp_apply, Function.comp_apply, hSame group hMem]
    obtain ⟨first, rest, rfl⟩ := List.exists_cons_of_ne_nil (h group hMem)
    split
    · have hCall := callOf_append (first :: rest) d
      exact congrArg (Prod.mk first.index) hCall.symm
    · rfl
  · rw [List.map_append, List.map_singleton, entryOf, callOf_singleton]
    rfl

/-- The map that is built up is that of the groups. -/
theorem foldl_setCall (front deltas : List CallDelta) :
    deltas.foldl setCall ((groupsOf front).map entryOf) =
      (groupsOf (front ++ deltas)).map entryOf := by
  induction deltas generalizing front with
  | nil => rw [List.append_nil]; rfl
  | cons d deltas ih =>
      have hStep : groupsOf (front ++ [d]) =
          addToGroups (groupsOf front) d := by
        rw [groupsOf, List.foldl_append]
        rfl
      rw [List.foldl_cons,
        setCall_entryOf (fun group hMem => ne_nil_of_mem_groupsOf hMem),
        ← hStep, ih, List.append_assoc, List.singleton_append]

/-- One more event. -/
theorem assemble_append (deltas : List Delta) (d : Delta) :
    assemble (deltas ++ [d]) = (assemble deltas).add d := by
  unfold assemble Aggregate.add
  congr 1
  · rw [List.flatMap_append]
    simp
  · dsimp only
    rw [List.flatMap_append, foldl_setCall]
    simp
  · rw [List.filterMap_append]
    cases hFinish : d.finishReason with
    | none => simp [hFinish]
    | some reason => simp [hFinish]

/-! ## Pieces and lines -/

/-- One event. -/
def onEvent (agg : Aggregate) (chunk : JsonValue) : Except JsString Aggregate :=
  (deltaOf rt chunk).bind fun d => .ok (agg.add d)

/-- Only the lines that are events count. -/
theorem foldlM_onLine (agg : Aggregate) (lines : List JsString) :
    lines.foldlM (onLine rt) agg =
      (lines.filterMap (event? rt)).foldlM (onEvent rt) agg := by
  induction lines generalizing agg with
  | nil => rfl
  | cons line lines ih =>
      rw [List.foldlM_cons, onLine, List.filterMap_cons]
      cases event? rt line with
      | none => exact ih agg
      | some chunk =>
          rw [List.foldlM_cons]
          show ((onEvent rt agg chunk).bind _) = (onEvent rt agg chunk).bind _
          cases onEvent rt agg chunk with
          | error message => rfl
          | ok agg => exact ih agg

/-- Event after event, the message of the events is put together. -/
theorem foldlM_onEvent (front : List Delta) (events : List JsonValue) :
    events.foldlM (onEvent rt) (assemble front) =
      (events.mapM (deltaOf rt)).bind fun deltas =>
        .ok (assemble (front ++ deltas)) := by
  induction events generalizing front with
  | nil =>
      rw [List.mapM_nil]
      show Except.ok _ = Except.ok (assemble (front ++ []))
      rw [List.append_nil]
  | cons chunk events ih =>
      rw [List.foldlM_cons, mapM_cons]
      cases hDelta : deltaOf rt chunk with
      | error message =>
          rw [onEvent, hDelta]
          rfl
      | ok d =>
          rw [onEvent, hDelta]
          show events.foldlM (onEvent rt) ((assemble front).add d) = _
          rw [← assemble_append, ih]
          show _ = ((events.mapM (deltaOf rt)).bind fun deltas =>
            .ok (d :: deltas)).bind _
          cases events.mapM (deltaOf rt) with
          | error message => rfl
          | ok deltas =>
              show Except.ok _ = Except.ok _
              rw [List.append_assoc, List.singleton_append]

/-- The pieces are read like the whole. -/
theorem foldlM_onValue {s : Reader} (h : unit '\n' ∉ s.buf)
    (values : List (List UInt8)) :
    values.foldlM (onValue rt) s =
      (drain (unit '\n') (onLine rt) s.agg
        (s.buf ++ (s.decoder.feed values.flatten).2.flatMap pointUnits)).bind
        fun t => .ok ⟨(s.decoder.feed values.flatten).1, t.2, t.1⟩ := by
  induction values generalizing s with
  | nil =>
      obtain ⟨⟨pending, started⟩, buf, agg⟩ := s
      have hNone : (Decoder.feed ⟨pending, started⟩ []) =
          (⟨pending, started⟩, []) := by
        cases started <;> rfl
      rw [List.flatten_nil, hNone, List.flatMap_nil, List.append_nil,
        drain_of_not_mem h]
      rfl
  | cons value values ih =>
      rw [List.foldlM_cons, List.flatten_cons, feed_append, List.flatMap_append,
        ← List.append_assoc, drain_append]
      show (onValue rt s value).bind _ = _
      have hValue : onValue rt s value =
          (drain (unit '\n') (onLine rt) s.agg
            (s.buf ++ (s.decoder.feed value).2.flatMap pointUnits)).bind
            fun t => .ok ⟨(s.decoder.feed value).1, t.2, t.1⟩ := rfl
      rw [hValue]
      cases hDrain : drain (unit '\n') (onLine rt) s.agg
          (s.buf ++ (s.decoder.feed value).2.flatMap pointUnits) with
      | error message => rfl
      | ok t => exact ih (not_mem_of_drain hDrain)

/-- The loop takes the events of the finished lines. -/
theorem aggregate_eq (values : List (List UInt8)) :
    aggregate rt values = messageOf rt (finishedEvents rt values.flatten) := by
  have hEnd : unit '\n' ∉
      (flush (Decoder.initial.feed values.flatten).1.pending).flatMap
        pointUnits := by
    cases (Decoder.initial.feed values.flatten).1.pending with
    | none => decide
    | some p =>
        show unit '\n' ∉ [replacement].flatMap pointUnits
        decide
  have hLines : (linesOf values.flatten).dropLast =
      (((Decoder.initial.feed values.flatten).2.flatMap
        pointUnits).splitOn (unit '\n')).dropLast := by
    rw [linesOf, decodeText_eq, dropLast_splitOn_append hEnd]
  have hStart : Aggregate.initial = assemble [] := rfl
  rw [finishedEvents, hLines, aggregate]
  show (values.foldlM (onValue rt) _).bind _ = _
  rw [foldlM_onValue rt List.not_mem_nil, List.nil_append, drain_eq,
    foldlM_onLine, hStart, foldlM_onEvent, messageOf]
  cases List.mapM (deltaOf rt) _ with
  | error message => rfl
  | ok deltas => rfl

/-- **A reply does not depend on how its bytes are cut.** -/
theorem aggregateChatStream_cut (values : List (List UInt8)) :
    aggregateChatStream rt values =
      aggregateChatStream rt [values.flatten] := by
  rw [aggregateChatStream, aggregateChatStream, aggregate_eq, aggregate_eq,
    List.flatten_singleton]

/-! ## The condition -/

theorem firstMentions_append (deltas : List CallDelta) (d : CallDelta) :
    firstMentions (deltas ++ [d]) =
      if (firstMentions deltas).any (fun index => sameIndex index d.index) then
        firstMentions deltas
      else firstMentions deltas ++ [d.index] := by
  rw [firstMentions, List.foldl_append]
  rfl

theorem indexes_setCall (calls : List (JsonValue × ToolCall)) (d : CallDelta) :
    (setCall calls d).map Prod.fst =
      if (calls.map Prod.fst).any (fun index => sameIndex index d.index) then
        calls.map Prod.fst
      else calls.map Prod.fst ++ [d.index] := by
  rw [setCall, List.any_map]
  split
  · rename_i hAny
    have hSame : calls.any ((fun index => sameIndex index d.index) ∘
        Prod.fst) = true := hAny
    rw [if_pos hSame, List.map_map]
    refine List.map_congr_left fun entry _ => ?_
    rw [Function.comp_apply]
    split
    · rfl
    · rfl
  · rename_i hNone
    have hOther : ¬calls.any ((fun index => sameIndex index d.index) ∘
        Prod.fst) = true := hNone
    rw [if_neg hOther, List.map_append]
    rfl

/-- The groups are named by the indexes in the order of their mention. -/
theorem indexes_groupsOf (deltas : List CallDelta) :
    ((groupsOf deltas).map entryOf).map Prod.fst = firstMentions deltas := by
  induction deltas using List.reverseRecOn with
  | nil => rfl
  | append_singleton deltas d ih =>
      have hStep := foldl_setCall deltas [d]
      rw [List.foldl_cons, List.foldl_nil] at hStep
      rw [← hStep, indexes_setCall, ih, firstMentions_append]

theorem inOrder_iff (deltas : List Delta) :
    ((assemble deltas).calls.Pairwise fun a b => before rt b.1 a.1 = false) ↔
      (firstMentions (deltas.flatMap Delta.calls)).Pairwise
        fun a b => before rt b a = false := by
  rw [← indexes_groupsOf, List.pairwise_map (f := Prod.fst)]
  rfl

/-- The last line may be an event of its own. -/
theorem eventsOf_eq (bytes : List UInt8) :
    eventsOf rt bytes = finishedEvents rt bytes ++
      ((linesOf bytes).getLast?.bind (event? rt)).toList := by
  obtain ⟨front, last, hLines⟩ :
      ∃ front last, linesOf bytes = front ++ [last] :=
    ⟨_, _, (List.dropLast_append_getLast
      (List.splitOn_ne_nil (unit '\n') (decodeText bytes))).symm⟩
  rw [eventsOf, finishedEvents, hLines, List.dropLast_concat,
    List.getLast?_concat, List.filterMap_append]
  show _ = _ ++ (event? rt last).toList
  cases hEvent : event? rt last with
  | none => simp [hEvent]
  | some chunk => simp [hEvent]

theorem endsQuietly_iff (bytes : List UInt8) :
    messageOf rt (eventsOf rt bytes) = messageOf rt (finishedEvents rt bytes) ↔
      EndsQuietly rt bytes := by
  rw [eventsOf_eq, EndsQuietly]
  cases (linesOf bytes).getLast?.bind (event? rt) with
  | none =>
      rw [Option.toList_none, List.append_nil]
      exact ⟨fun _ chunk hNone => (by cases hNone), fun _ => rfl⟩
  | some chunk =>
      constructor
      · rintro hSame other hOther
        rw [← Option.some.inj hOther]
        exact hSame
      · intro hQuiet
        exact hQuiet chunk rfl

/-- The message is that of all events, in the order of the indexes, if and only
if nothing of weight follows the last line break and the indexes are first
mentioned in their order. -/
theorem aggregates_iff (bytes : List UInt8) :
    Aggregates rt bytes ↔ EndsQuietly rt bytes ∧ MentionsInOrder rt bytes := by
  have hWhole : aggregate rt [bytes] =
      messageOf rt (finishedEvents rt bytes) := by
    have hAll := aggregate_eq rt [bytes]
    rwa [List.flatten_singleton] at hAll
  constructor
  · intro h
    have hFolded := h.folded [bytes] (List.flatten_singleton)
    refine ⟨(endsQuietly_iff rt bytes).mp (hFolded.symm.trans hWhole),
      fun deltas hDeltas => ?_⟩
    have hMessage : aggregate rt [bytes] = .ok (assemble deltas) := by
      rw [hWhole, messageOf, hDeltas]
      rfl
    exact (inOrder_iff rt deltas).mp
      (h.inOrder [bytes] _ List.flatten_singleton hMessage)
  · rintro ⟨hQuiet, hOrder⟩
    refine ⟨fun values hCut => ?_, fun values agg hCut hAgg => ?_⟩
    · rw [aggregate_eq, hCut]
      exact ((endsQuietly_iff rt bytes).mpr hQuiet).symm
    · rw [aggregate_eq, hCut] at hAgg
      obtain ⟨deltas, hDeltas, hSame⟩ := bind_eq_ok.mp hAgg
      cases hSame
      exact (inOrder_iff rt deltas).mpr (hOrder deltas hDeltas)

/-- `{"choices":[{"delta":{"content":"hi"}}]}` -/
def greeting : JsonValue :=
  .object [(js "choices", .array [.object [(js "delta",
    .object [(js "content", .string (js "hi"))])]])]

/-- A runtime that reads this one event. -/
def greetingRuntime : Runtime where
  parse payload := if payload = stringify greeting then some greeting else none
  text
    | .string text => text
    | _ => []
  less _ _ := false

/-- `data: {"choices":[{"delta":{"content":"hi"}}]}`, without a line break. -/
def greetingBytes : List UInt8 := utf8 (js "data: " ++ stringify greeting)

/-- The last event of a body without a final line break is lost. -/
theorem aggregates_unfinished : ¬Aggregates greetingRuntime greetingBytes := by
  intro h
  have hFolded := h.folded [greetingBytes] List.flatten_singleton
  have hWhole := aggregate_eq greetingRuntime [greetingBytes]
  rw [List.flatten_singleton] at hWhole
  have hQuiet := (endsQuietly_iff greetingRuntime greetingBytes).mp
    (hFolded.symm.trans hWhole)
  have hLines : linesOf greetingBytes =
      [js "data: " ++ stringify greeting] := by decide +kernel
  have hFinished : finishedEvents greetingRuntime greetingBytes = [] := by
    rw [finishedEvents, hLines]
    rfl
  have hEvent : (linesOf greetingBytes).getLast?.bind
      (event? greetingRuntime) = some greeting := by
    have hPayload : trim ((trim (js "data: " ++ stringify greeting)).drop 5) =
        stringify greeting := by decide +kernel
    have hStarts : (js "data:").isPrefixOf
        (trim (js "data: " ++ stringify greeting)) = true := by decide +kernel
    have hGiven : ¬(stringify greeting = [] ∨
        stringify greeting = js "[DONE]") := by decide +kernel
    rw [hLines]
    show event? greetingRuntime (js "data: " ++ stringify greeting) = _
    unfold event?
    dsimp only
    rw [if_pos hStarts, hPayload, if_neg hGiven]
    show (if stringify greeting = stringify greeting then some greeting
      else none) = _
    exact if_pos rfl
  have hSame := hQuiet greeting hEvent
  rw [hFinished] at hSame
  have hContent := congrArg
    (fun reply => reply.toOption.map Aggregate.content) hSame
  revert hContent
  decide +kernel

end OpenApe.Ports.ChatStream
