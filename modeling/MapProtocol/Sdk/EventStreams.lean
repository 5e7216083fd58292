import MapProtocol.Js.JsonLine
import MapProtocol.Js.JsonRoundTrip
import MapProtocol.Js.TextDecoder
import MapProtocol.Lib.Cutting
import MapProtocol.Protocol.Types
import MapProtocol.Py.Json

/-!
# Event streams

What the server writes to a task's stream, frame by frame, and how the clients read it. Their
parsers are one (`parseSSE`): text is kept until an empty line ends it, and each part that is ended
gives the data of its `data: ` line. Their iterators differ. The TypeScript client's `next` opens a
connection of its own at every call, and answers with the first event of that connection. The Python
clients read one connection to its end, but hand on only the first event of each chunk.
-/

namespace MapProtocol.Sdk

open Js

/-! ## What the server writes -/

inductive StreamEventType where
  | status
  | result
  | error

def StreamEventType.text : StreamEventType → String
  | .status => "status"
  | .result => "result"
  | .error  => "error"

/-- One write of the stream route: `sendEvent`, or the heartbeat's. -/
inductive Frame where
  | event (type : StreamEventType) (data : JsObject)
  | heartbeat

namespace Frame

/-- The frame without the empty line that ends it. -/
def body : Frame → List Char
  | event type data =>
      "event: ".toList ++ type.text.toList ++ '\n' :: ("data: ".toList ++ (stringify data).toList)
  | heartbeat => ": heartbeat".toList

def text (f : Frame) : List Char := f.body ++ ['\n', '\n']

def value : Frame → Option JsValue
  | event _ data => parse (stringify data)
  | heartbeat    => none

end Frame

def streamText (frames : List Frame) : List Char := frames.flatMap Frame.text

def streamValues (frames : List Frame) : List JsValue := frames.filterMap Frame.value

/-- How many frames with data are complete in the first `n` characters. -/
def endedWithin : List Frame → Nat → Nat
  | [], _      => 0
  | f :: fs, n =>
      if f.text.length ≤ n then f.value.toList.length + endedWithin fs (n - f.text.length) else 0

/-- The frames that answer a connection at once. -/
def openingFrames (task : TaskRecord) : List Frame :=
  let status := Frame.event .status [("task_id", .str task.taskId),
    ("status", .str task.status.text), ("capability", .ofString? task.capability),
    ("target_agent", .ofString? task.targetAgent), ("updated_at", .str task.updatedAt),
    ("event", .str "status")]
  match task.status, task.result with
  | .completed, some result =>
      [status, .event .result [("task_id", .str task.taskId), ("result", .obj result.toJs)]]
  | _, _ => [status]

/-! ## The parser

An empty line ends a part; what follows the last one is kept for the next chunk. -/

section

/-! The clients strip white space by their own languages' rules. -/

variable (strip : List Char → List Char)

def readLine (acc : List Char × List Char) (line : List Char) : List Char × List Char :=
  if "event: ".toList.isPrefixOf line then (strip (line.drop 7), acc.2)
  else if "data: ".toList.isPrefixOf line then (acc.1, strip (line.drop 6))
  else acc

/-- The event of one part. `json.loads` reads what `JSON.stringify` writes as `JSON.parse` does. The
second reading of data that could not be read is the source's. -/
def parsePart (part : List Char) : Option JsValue :=
  let (eventType, data) := (splitChars '\n' part).foldl (readLine strip) ([], [])
  if data.isEmpty then none
  else match parse (String.ofList data) with
    | some parsed => some parsed
    | none =>
        if eventType.isEmpty then none
        else match parse (String.ofList data) with
          | some (.obj members) =>
              some (.obj (JsObject.spread [("type", .str (String.ofList eventType))] members))
          | _ => none

/-- The events that a chunk completes, and what the buffer keeps. -/
def parseSSE (buffer chunk : List Char) : List JsValue × List Char :=
  let (parts, rest) := cut '\n' (buffer ++ chunk)
  (parts.filterMap (parsePart strip), rest)

end

/-! ## The Python clients

The asynchronous client reads as the synchronous one does. -/

namespace Python

/-- `_read_event`; `none` is its `StopIteration`. -/
def readEvent (buffer : List Char) :
    List (List UInt8) → Option (JsValue × List Char × List (List UInt8))
  | []              => none
  | chunk :: chunks =>
      match parseSSE Py.strip buffer (fromUtf8 chunk).toList with
      | (event :: _, rest) => some (event, rest, chunks)
      | ([], rest)         => readEvent rest chunks

/-- The events that a loop over the stream sees, if it ends within `fuel` steps. -/
def loop : Nat → List Char → List (List UInt8) → Option (List JsValue)
  | 0, _, _                  => none
  | fuel + 1, buffer, chunks =>
      match readEvent buffer chunks with
      | none                       => some []
      | some (event, rest, chunks) => (loop fuel rest chunks).map (event :: ·)

/-- Iterating over a stream with these chunks yields these values and ends. -/
def Yields (chunks : List (List UInt8)) (values : List JsValue) : Prop :=
  ∃ fuel, loop fuel [] chunks = some values

end Python

/-! ## The TypeScript client -/

namespace TypeScript

/-- How a call of `next` settles. -/
inductive NextResult where
  | value (v : JsValue)
  | done
  | throws

/-- The iterator of a task's stream. Its connections share the buffer; each has a decoder, which
keeps the bytes of a character that a chunk has cut. -/
structure TaskStream where
  buffer   : List Char := []
  stopped  : Bool := false
  decoders : List (Option PendingBytes) := []
  /-- The call of `next` that has not settled, if there is one, is the last connection's. -/
  waiting  : Bool := false

inductive StreamEvent where
  /-- `next` is called, and its `fetch` is answered, well or not. -/
  | next (ok : Bool)
  /-- The reader of a connection is given a chunk. -/
  | read (connection : Nat) (chunk : List UInt8)
  /-- `return` is called. -/
  | stop

def trimChars (cs : List Char) : List Char := (trim (String.ofList cs)).toList

/-- What an event does, and how a call of `next` settles by it. Events of a connection whose call
has settled go to a list that nobody reads. -/
def step (s : TaskStream) : StreamEvent → TaskStream × Option NextResult
  | .next ok =>
      if s.stopped then (s, some .done)
      else if ok then ({ s with decoders := s.decoders ++ [none], waiting := true }, none)
      else (s, some .throws)
  | .read connection chunk =>
      let (text, pending) := decodeStream (s.decoders.getD connection none) (chunk.map UInt8.toNat)
      let (events, rest) := parseSSE trimChars s.buffer text
      let s' := { s with buffer := rest, decoders := s.decoders.set connection pending }
      match events with
      | event :: _ =>
          if s.waiting ∧ connection + 1 = s.decoders.length then
            ({ s' with waiting := false }, some (.value event))
          else (s', none)
      | [] => (s', none)
  | .stop => ({ s with stopped := true, waiting := false }, if s.waiting then some .done else none)

/-- How the calls of `next` settle, in order. -/
def results (s : TaskStream) : List StreamEvent → List NextResult
  | []      => []
  | e :: es => (step s e).2.toList ++ results (step s e).1 es

def chunksOf (connection : Nat) (run : List StreamEvent) : List (List UInt8) :=
  run.filterMap fun
    | .read i chunk => if i = connection then some chunk else none
    | _             => none

/-- In a run that nobody stops and that gives each connection a beginning of these chunks, iterating
over the stream yields these values and ends. -/
def Yields (chunks : List (List UInt8)) (values : List JsValue) : Prop :=
  ∃ run, (∀ e ∈ run, e ≠ .stop) ∧ (∀ i, chunksOf i run <+: chunks) ∧
    results {} run = values.map .value ++ [.done]

end TypeScript

/-! ## Parsing a stream

How a stream is cut into chunks changes when its events are read, not which. -/

section

variable {strip : List Char → List Char}

/-- An object's text is left by stripping as it is. -/
def KeepsObjects (strip : List Char → List Char) : Prop :=
  ∀ cs, strip ('\x7b' :: (cs ++ ['\x7d'])) = '\x7b' :: (cs ++ ['\x7d'])

theorem keepsObjects_strip : KeepsObjects Py.strip := by
  intro cs
  have hopen : Py.isSpace '\x7b' = false := by decide
  have hclose : Py.isSpace '\x7d' = false := by decide
  simp [Py.strip, hopen, hclose]

theorem keepsObjects_trim : KeepsObjects TypeScript.trimChars := by
  intro cs
  have hopen : isWhiteSpace '\x7b' = false := by decide
  have hclose : isWhiteSpace '\x7d' = false := by decide
  simp [TypeScript.trimChars, trim, hopen, hclose]

theorem newline_notMem_type (type : StreamEventType) :
    '\n' ∉ "event: ".toList ++ type.text.toList := by
  cases type <;> decide

theorem newline_notMem_data (data : JsObject) :
    '\n' ∉ "data: ".toList ++ (stringify data).toList := by
  rw [List.mem_append, not_or]
  exact ⟨by decide, newline_notMem_stringify data⟩

/-- **A frame is parsed to its data.** -/
theorem parsePart_body (hstrip : KeepsObjects strip) (f : Frame) :
    parsePart strip f.body = f.value := by
  cases f with
  | heartbeat => rfl
  | event type data =>
      have hlines : splitChars '\n' (Frame.event type data).body =
          ["event: ".toList ++ type.text.toList, "data: ".toList ++ (stringify data).toList] := by
        unfold Frame.body
        rw [splitChars_append (newline_notMem_type type),
          splitChars_of_notMem (newline_notMem_data data)]
      -- only the `data: ` line leaves a trace
      have hread : ["event: ".toList ++ type.text.toList,
          "data: ".toList ++ (stringify data).toList].foldl (readLine strip) ([], []) =
          (strip type.text.toList, (stringify data).toList) := by
        rw [toList_stringify]
        simpa [readLine] using hstrip _
      unfold parsePart Frame.value
      rw [hlines, hread, toList_stringify]
      simp only [List.isEmpty_cons, Bool.false_eq_true, if_false]
      rw [← toList_stringify, String.ofList_toList]
      cases hparse : parse (stringify data) with
      | some parsed => rfl
      | none => simp

theorem isChain_body (f : Frame) :
    (f.body ++ ['\n']).IsChain fun x y => ¬(x = '\n' ∧ y = '\n') := by
  cases f with
  | heartbeat => exact isChain_line (by decide) (by decide) (List.isChain_singleton _)
  | event type data =>
      have hdata : ("data: ".toList ++ (stringify data).toList ++ ['\n']).IsChain
          fun x y => ¬(x = '\n' ∧ y = '\n') :=
        isChain_line (newline_notMem_data data) (by simp) (List.isChain_singleton _)
      have hhead : ¬('\n' = '\n' ∧ 'd' = '\n') := by decide
      unfold Frame.body
      rw [List.append_assoc, List.cons_append]
      exact isChain_line (newline_notMem_type type) (by simp)
        (List.isChain_cons_cons.mpr ⟨hhead, hdata⟩)

theorem cut_text (f : Frame) (rest : List Char) :
    cut '\n' (f.text ++ rest) = (f.body :: (cut '\n' rest).1, (cut '\n' rest).2) := by
  unfold Frame.text
  rw [List.append_assoc]
  exact cut_record rest (isChain_body f)

def eventsIn (strip : List Char → List Char) (text : List Char) : List JsValue :=
  (cut '\n' text).1.filterMap (parsePart strip)

theorem eventsIn_text (hstrip : KeepsObjects strip) (f : Frame) (rest : List Char) :
    eventsIn strip (f.text ++ rest) = f.value.toList ++ eventsIn strip rest := by
  unfold eventsIn
  rw [cut_text]
  dsimp only
  rw [List.filterMap_cons, parsePart_body hstrip]
  cases f.value <;> rfl

theorem eventsIn_stream (hstrip : KeepsObjects strip) (frames : List Frame) :
    eventsIn strip (streamText frames) = streamValues frames := by
  induction frames with
  | nil => rfl
  | cons f fs ih =>
      show eventsIn strip (f.text ++ streamText fs) = _
      rw [eventsIn_text hstrip, ih]
      unfold streamValues
      rw [List.filterMap_cons]
      cases f.value <;> rfl

theorem parseSSE_stream (hstrip : KeepsObjects strip) (frames : List Frame) :
    parseSSE strip [] (streamText frames) = (streamValues frames, []) := by
  have hrest : (cut '\n' (streamText frames)).2 = [] := by
    induction frames with
    | nil => rfl
    | cons f fs ih =>
        show (cut '\n' (f.text ++ streamText fs)).2 = []
        rw [cut_text, ih]
  have hevents := eventsIn_stream hstrip frames
  unfold parseSSE
  rw [List.nil_append]
  exact Prod.ext hevents hrest

/-- As many events are in a beginning of the stream as frames end within it. -/
theorem length_eventsIn_prefix (hstrip : KeepsObjects strip) {frames : List Frame}
    {text : List Char} (h : text <+: streamText frames) :
    (eventsIn strip text).length = endedWithin frames text.length := by
  induction frames generalizing text with
  | nil =>
      rw [List.prefix_nil.mp h]
      rfl
  | cons f fs ih =>
      have hframes : text <+: f.text ++ streamText fs := h
      unfold endedWithin
      split
      · rename_i hle
        obtain ⟨rest, rfl⟩ := List.prefix_of_prefix_length_le (List.prefix_append _ _) hframes hle
        have hrest := ih ((List.prefix_append_right_inj _).mp hframes)
        rw [eventsIn_text hstrip, List.length_append, hrest, List.length_append,
          Nat.add_sub_cancel_left]
      · rename_i hlt
        -- the frame has not ended, so nothing is cut off
        have hbefore : text <+: f.body ++ ['\n'] := by
          refine List.prefix_of_prefix_length_le hframes ?_ ?_
          · unfold Frame.text
            exact ⟨'\n' :: streamText fs, by simp⟩
          · simp only [Frame.text, List.length_append, List.length_cons, List.length_nil] at hlt ⊢
            omega
        obtain ⟨rest, hrest⟩ := hbefore
        have hbody := isChain_body f
        rw [← hrest] at hbody
        have huncut := uncut_of_isChain hbody.left_of_append
        unfold eventsIn
        rw [huncut]
        rfl

/-- The events that each of these texts completes, read one after the other. -/
def eventsOf (strip : List Char → List Char) (buffer : List Char) :
    List (List Char) → List (List JsValue)
  | []            => []
  | text :: texts =>
      let (events, rest) := parseSSE strip buffer text
      events :: eventsOf strip rest texts

theorem parseSSE_eq (read text : List Char) : eventsIn strip (read ++ text) =
    eventsIn strip read ++ (parseSSE strip (cut '\n' read).2 text).1 := by
  unfold eventsIn parseSSE
  rw [cut_append, List.filterMap_append]

theorem rest_parseSSE (read text : List Char) :
    (parseSSE strip (cut '\n' read).2 text).2 = (cut '\n' (read ++ text)).2 := by
  unfold parseSSE
  rw [cut_append read text]

theorem eventsOf_cons (read text : List Char) (texts : List (List Char)) :
    eventsOf strip (cut '\n' read).2 (text :: texts) =
      (parseSSE strip (cut '\n' read).2 text).1 ::
        eventsOf strip (cut '\n' (read ++ text)).2 texts := by
  rw [← @rest_parseSSE strip]
  rfl

/-- **Nothing is lost between chunks.** -/
theorem flatten_eventsOf (read : List Char) (texts : List (List Char)) :
    eventsIn strip (read ++ texts.flatten) =
      eventsIn strip read ++ (eventsOf strip (cut '\n' read).2 texts).flatten := by
  induction texts generalizing read with
  | nil => simp [eventsOf]
  | cons text texts ih =>
      rw [eventsOf_cons, List.flatten_cons, List.flatten_cons, ← List.append_assoc, ih,
        parseSSE_eq, List.append_assoc]

theorem forall_eventsOf_iff (read : List Char) (texts : List (List Char)) :
    (∀ events ∈ eventsOf strip (cut '\n' read).2 texts, events.length ≤ 1) ↔
      ∀ before text after, texts = before ++ text :: after →
        (eventsIn strip (read ++ before.flatten ++ text)).length ≤
          (eventsIn strip (read ++ before.flatten)).length + 1 := by
  induction texts generalizing read with
  | nil => simp [eventsOf]
  | cons text texts ih =>
      rw [eventsOf_cons, List.forall_mem_cons, ih]
      have hfirst : (parseSSE strip (cut '\n' read).2 text).1.length ≤ 1 ↔
          (eventsIn strip (read ++ text)).length ≤ (eventsIn strip read).length + 1 := by
        rw [parseSSE_eq, List.length_append]
        omega
      rw [hfirst]
      constructor
      · rintro ⟨hhead, htail⟩ before text' after heq
        cases before with
        | nil =>
            cases heq
            simpa using hhead
        | cons t before =>
            cases heq
            simpa using htail before text' after rfl
      · intro h
        refine ⟨by simpa using h [] text texts rfl, fun before text' after heq => ?_⟩
        simpa using h (text :: before) text' after (by rw [heq, List.cons_append])

end

/-! ## What the Python clients yield -/

theorem length_heads_le {α : Type} (ls : List (List α)) :
    (ls.flatMap fun l => l.head?.toList).length ≤ ls.flatten.length := by
  induction ls with
  | nil => exact Nat.le_refl _
  | cons l ls ih =>
      rw [List.flatMap_cons, List.flatten_cons, List.length_append, List.length_append]
      have hhead : l.head?.toList.length ≤ l.length := by
        cases l <;> simp
      omega

/-- The first elements are all if and only if no list has two. -/
theorem heads_eq_flatten_iff {α : Type} {ls : List (List α)} :
    (ls.flatMap fun l => l.head?.toList) = ls.flatten ↔ ∀ l ∈ ls, l.length ≤ 1 := by
  induction ls with
  | nil => simp
  | cons l ls ih =>
      rw [List.flatMap_cons, List.flatten_cons, List.forall_mem_cons]
      cases l with
      | nil => simpa using ih
      | cons x xs =>
          cases xs with
          | nil => simpa using ih
          | cons y ys =>
              constructor
              · intro h
                have hlength := congrArg List.length h
                have hle := length_heads_le ls
                simp only [List.length_append, List.length_cons, List.head?_cons,
                  Option.toList_some, List.length_nil] at hlength
                omega
              · rintro ⟨hshort, -⟩
                simp at hshort

namespace Python

variable {buffer : List Char} {chunks : List (List UInt8)}

def firstEvents (buffer : List Char) (chunks : List (List UInt8)) : List JsValue :=
  (eventsOf Py.strip buffer (chunks.map fun chunk => (fromUtf8 chunk).toList)).flatMap
    fun events => events.head?.toList

theorem firstEvents_cons (buffer : List Char) (chunk : List UInt8) (chunks : List (List UInt8)) :
    firstEvents buffer (chunk :: chunks) =
      (parseSSE Py.strip buffer (fromUtf8 chunk).toList).1.head?.toList ++
        firstEvents (parseSSE Py.strip buffer (fromUtf8 chunk).toList).2 chunks := rfl

theorem firstEvents_of_stop (h : readEvent buffer chunks = none) :
    firstEvents buffer chunks = [] := by
  induction chunks generalizing buffer with
  | nil => rfl
  | cons chunk chunks ih =>
      rw [firstEvents_cons]
      unfold readEvent at h
      split at h
      · cases h
      · rename_i rest hparse
        rw [hparse]
        exact ih h

theorem firstEvents_of_event {buffer rest : List Char} {chunks left : List (List UInt8)}
    {event : JsValue} (h : readEvent buffer chunks = some (event, rest, left)) :
    firstEvents buffer chunks = event :: firstEvents rest left ∧ left.length < chunks.length := by
  induction chunks generalizing buffer with
  | nil => cases h
  | cons chunk chunks ih =>
      rw [firstEvents_cons]
      unfold readEvent at h
      split at h
      · rename_i hparse
        cases h
        rw [hparse]
        exact ⟨rfl, Nat.lt_succ_self _⟩
      · rename_i kept hparse
        rw [hparse]
        obtain ⟨hevents, hshorter⟩ := ih h
        exact ⟨hevents, Nat.lt_succ_of_lt hshorter⟩

theorem loop_eq {fuel : Nat} {values : List JsValue} (h : loop fuel buffer chunks = some values) :
    values = firstEvents buffer chunks := by
  induction fuel generalizing buffer chunks values with
  | zero => cases h
  | succ fuel ih =>
      unfold loop at h
      split at h
      · rename_i hstop
        cases h
        exact (firstEvents_of_stop hstop).symm
      · rename_i event rest left hevent
        obtain ⟨values, hloop, rfl⟩ := Option.map_eq_some_iff.mp h
        rw [(firstEvents_of_event hevent).1, ih hloop]

theorem loop_ends {fuel : Nat} {buffer : List Char} {chunks : List (List UInt8)}
    (h : chunks.length < fuel) : ∃ values, loop fuel buffer chunks = some values := by
  induction fuel generalizing buffer chunks with
  | zero => cases h
  | succ fuel ih =>
      unfold loop
      cases hread : readEvent buffer chunks with
      | none => exact ⟨[], rfl⟩
      | some next =>
          obtain ⟨event, rest, left⟩ := next
          have hshorter := (firstEvents_of_event hread).2
          obtain ⟨values, hloop⟩ := @ih rest left (by omega)
          exact ⟨event :: values, by simp [hloop]⟩

theorem yields_iff {values : List JsValue} :
    Yields chunks values ↔ firstEvents [] chunks = values := by
  constructor
  · rintro ⟨fuel, hloop⟩
    exact (loop_eq hloop).symm
  · rintro rfl
    obtain ⟨values, hloop⟩ := @loop_ends (chunks.length + 1) [] chunks (Nat.lt_succ_self _)
    exact ⟨_, loop_eq hloop ▸ hloop⟩

end Python

/-- No chunk completes two events. -/
def OneEventEach (frames : List Frame) (texts : List String) : Prop :=
  ∀ before text after, texts = before ++ text :: after →
    endedWithin frames (String.join (before ++ [text])).toList.length ≤
      endedWithin frames (String.join before).toList.length + 1

theorem oneEventEach_single (f : Frame) (texts : List String) : OneEventEach [f] texts := by
  have hone : ∀ n, endedWithin [f] n ≤ 1 := by
    intro n
    unfold endedWithin
    split
    · cases f.value <;> simp [endedWithin]
    · exact Nat.zero_le 1
  exact fun _ _ _ _ => Nat.le_add_left_of_le (hone _)

theorem utf8_join (texts : List String) : (texts.map utf8).flatten = utf8 (String.join texts) := by
  induction texts with
  | nil => rfl
  | cons t ts ih =>
      rw [List.map_cons, List.flatten_cons, ih, String.join_cons, utf8_append]

/-- Chunks that cut no character reach the Python clients whole if and only if none completes two
events. -/
theorem Python.yields_texts_iff {frames : List Frame} {texts : List String}
    (h : (String.join texts).toList = streamText frames) :
    Yields (texts.map utf8) (streamValues frames) ↔ OneEventEach frames texts := by
  have htexts : (texts.map utf8).map (fun chunk => (fromUtf8 chunk).toList) =
      texts.map String.toList := by
    simp
  have hall : (eventsOf Py.strip [] (texts.map String.toList)).flatten = streamValues frames := by
    rw [← eventsIn_stream keepsObjects_strip, ← h, String.toList_join, List.flatMap_def]
    exact (flatten_eventsOf [] _).symm
  rw [yields_iff, firstEvents, htexts, ← hall, heads_eq_flatten_iff]
  refine (forall_eventsOf_iff [] _).trans ?_
  have hprefix : ∀ before after, texts = before ++ after →
      (eventsIn Py.strip (String.join before).toList).length =
        endedWithin frames (String.join before).toList.length := by
    intro before after heq
    refine length_eventsIn_prefix keepsObjects_strip ?_
    rw [← h, heq, String.toList_join, String.toList_join, List.flatMap_append]
    exact List.prefix_append _ _
  -- a chunk ends as many frames as it adds events
  have hcounts : ∀ before text after, texts = before ++ text :: after →
      ((eventsIn Py.strip ([] ++ (before.map String.toList).flatten ++ text.toList)).length ≤
          (eventsIn Py.strip ([] ++ (before.map String.toList).flatten)).length + 1 ↔
        endedWithin frames (String.join (before ++ [text])).toList.length ≤
          endedWithin frames (String.join before).toList.length + 1) := by
    intro before text after heq
    rw [← hprefix before _ heq, ← hprefix (before ++ [text]) after (by simp [heq])]
    simp [List.flatMap_def]
  constructor
  · intro hone before text after heq
    exact (hcounts before text after heq).mp
      (hone (before.map String.toList) text.toList (after.map String.toList) (by simp [heq]))
  · intro hone before text after heq
    obtain ⟨before, rest, rfl, rfl, hrest⟩ := List.map_eq_append_iff.mp heq
    obtain ⟨text, after, rfl, rfl, rfl⟩ := List.map_eq_cons_iff.mp hrest
    exact (hcounts before text after rfl).mpr (hone before text after rfl)

/-! ## What the TypeScript client yields -/

namespace TypeScript

theorem step_running {s : TaskStream} (hs : s.stopped = false) {e : StreamEvent}
    (he : e ≠ .stop) : (step s e).1.stopped = false ∧ .done ∉ (step s e).2.toList := by
  cases e with
  | stop => exact absurd rfl he
  | next ok =>
      unfold step
      cases ok <;> simp [hs]
  | read connection chunk =>
      unfold step
      dsimp only
      split
      · split <;> simp [hs]
      · simp [hs]

theorem done_notMem_results {s : TaskStream} (hs : s.stopped = false) {run : List StreamEvent}
    (hrun : ∀ e ∈ run, e ≠ .stop) : .done ∉ results s run := by
  induction run generalizing s with
  | nil => exact List.not_mem_nil
  | cons e run ih =>
      obtain ⟨hrunning, hnot⟩ := step_running hs (hrun e List.mem_cons_self)
      intro hdone
      rcases List.mem_append.mp hdone with hdone | hdone
      · exact hnot hdone
      · exact ih hrunning (fun e' he' => hrun e' (List.mem_cons_of_mem e he')) hdone

/-- **The TypeScript iteration never ends**, however the stream is cut. -/
theorem not_yields (chunks : List (List UInt8)) (values : List JsValue) :
    ¬Yields chunks values := by
  rintro ⟨run, hrun, -, hresults⟩
  refine done_notMem_results (s := {}) rfl hrun ?_
  rw [hresults]
  simp

end TypeScript

/-! ## No stream is read without loss -/

/-- Both iterations yield the data of every frame, once and in order, and end. -/
def Lossless (frames : List Frame) (chunks : List (List UInt8)) : Prop :=
  TypeScript.Yields chunks (streamValues frames) ∧ Python.Yields chunks (streamValues frames)

/-- No way of cutting any stream is read without loss by all clients, for the TypeScript client's
iteration does not end. The Python clients read chunks that cut no character without loss if and
only if none of them completes two events. -/
theorem stream_never_lossless (frames : List Frame) (chunks : List (List UInt8))
    (h : chunks.flatten = utf8 (String.ofList (streamText frames))) :
    ¬Lossless frames chunks ∧ ∀ texts, chunks = texts.map utf8 →
      (Python.Yields chunks (streamValues frames) ↔ OneEventEach frames texts) := by
  refine ⟨fun hlossless => TypeScript.not_yields _ _ hlossless.1, ?_⟩
  rintro texts rfl
  rw [utf8_join] at h
  have hjoin := congrArg fromUtf8 h
  rw [fromUtf8_utf8, fromUtf8_utf8] at hjoin
  exact Python.yields_texts_iff (by rw [hjoin, String.toList_ofList])

/-- The two writes of a status frame. -/
def statusWrites (data : JsObject) : List String :=
  ["event: status\n", "data: " ++ stringify data ++ "\n\n"]

theorem join_statusWrites (data : JsObject) : String.join (statusWrites data) =
    String.ofList (streamText [.event .status data]) := by
  rw [← String.toList_inj, String.toList_join, String.toList_ofList]
  unfold streamText Frame.text Frame.body statusWrites
  simp only [List.flatMap_cons, List.flatMap_nil, String.toList_append, List.append_nil,
    List.append_assoc, List.cons_append]
  generalize stringify data = json
  rfl

/-- Each in a chunk of its own, the two writes reach the Python clients. -/
theorem status_in_two_writes : ¬Lossless [.event .status [("status", .str "running")]]
      ((statusWrites [("status", .str "running")]).map utf8) ∧
    Python.Yields ((statusWrites [("status", .str "running")]).map utf8)
      (streamValues [.event .status [("status", .str "running")]]) := by
  have hwrites := join_statusWrites [("status", .str "running")]
  have hone := oneEventEach_single (.event .status [("status", .str "running")])
    (statusWrites [("status", .str "running")])
  obtain ⟨hlossy, hyields⟩ := stream_never_lossless [.event .status [("status", .str "running")]]
    ((statusWrites [("status", .str "running")]).map utf8) (by rw [utf8_join, hwrites])
  exact ⟨hlossy, (hyields _ rfl).mpr hone⟩

/-- A task that is over when its stream is opened. -/
def overTask : TaskRecord where
  taskId            := "t"
  orderId           := none
  contextId         := none
  requesterIdentity := none
  idempotencyKey    := none
  capability        := none
  targetAgent       := none
  status            := .completed
  result            := some
    { taskId                  := "t"
      contextId               := none
      status                  := .completed
      summary                 := none
      structuredOutput        := []
      negotiatedSchemaVersion := none
      requestedSchemaVersion  := none
      executedSchemaVersion   := none
      negotiation             := none
      redactionsApplied       := none
      followupRequired        := false
      escalationReason        := none
      extensions              := none }
  receipt           := none
  updatedAt         := ""

def overStatus : JsObject :=
  [("task_id", .str "t"), ("status", .str "completed"), ("updated_at", .str ""),
    ("event", .str "status")]

def overResult : JsObject :=
  [("task_id", .str "t"), ("result", .obj [("task_id", .str "t"),
    ("status", .str "completed"), ("structured_output", .obj []),
    ("followup_required", .bool false)])]

theorem Frame.value_event (type : StreamEventType) {data copy : JsObject}
    (hcopy : jsonCopyMembers data = copy) (h : IsJson (.obj copy)) :
    (Frame.event type data).value = some (.obj copy) := by
  show parse (stringify data) = _
  rw [← stringify_jsonCopy, hcopy]
  exact parse_stringify? h rfl

theorem streamValues_overTask :
    streamValues (openingFrames overTask) = [.obj overStatus, .obj overResult] := by
  obtain ⟨first, second, hopening, hfirst, hsecond⟩ : ∃ first second,
      openingFrames overTask = [.event .status first, .event .result second] ∧
        jsonCopyMembers first = overStatus ∧ jsonCopyMembers second = overResult :=
    ⟨_, _, rfl, rfl, rfl⟩
  have hstatus := Frame.value_event .status hfirst (by simp [overStatus, IsJson, HaveJson])
  have hresult := Frame.value_event .result hsecond (by simp [overResult, IsJson, HaveJson])
  rw [hopening]
  simp [streamValues, hstatus, hresult]

/-- Of the frames that come in one chunk the Python loop yields the first alone, and the TypeScript
client's `next` gives that one anew from every connection. -/
theorem first_alone {frames : List Frame} {v w : JsValue} (h : streamValues frames = [v, w]) :
    Python.loop 2 [] [utf8 (String.ofList (streamText frames))] = some [v] ∧
      TypeScript.results {} [.next true, .read 0 (utf8 (String.ofList (streamText frames))),
          .next true, .read 1 (utf8 (String.ofList (streamText frames)))] =
        [.value v, .value v] := by
  have hpython := parseSSE_stream keepsObjects_strip frames
  have htypescript := parseSSE_stream keepsObjects_trim frames
  have hdecode := decodeStream_utf8 (streamText frames)
  rw [h] at hpython htypescript
  refine ⟨?_, ?_⟩
  · simp [Python.loop, Python.readEvent, hpython]
  · simp [TypeScript.results, TypeScript.step, hdecode, htypescript]

/-- The two frames of `overTask` are written at once, and its result is lost. -/
theorem result_lost :
    let frames := openingFrames overTask
    let chunk := utf8 (String.ofList (streamText frames))
    streamValues frames = [.obj overStatus, .obj overResult] ∧
      Python.loop 2 [] [chunk] = some [.obj overStatus] ∧
      TypeScript.results {} [.next true, .read 0 chunk, .next true, .read 1 chunk] =
        [.value (.obj overStatus), .value (.obj overStatus)] ∧
      ¬Lossless frames [chunk] :=
  have hfirst := first_alone streamValues_overTask
  ⟨streamValues_overTask, hfirst.1, hfirst.2, fun h => TypeScript.not_yields _ _ h.1⟩

end MapProtocol.Sdk
