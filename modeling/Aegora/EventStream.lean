import Mathlib.Data.List.Basic

/-!
# Event streams

How a client reads `text/event-stream`: by characters, so that what has arrived so far is always
read. A line ends with a line feed, a carriage return or both; an empty line dispatches the event
that the fields before it have built, and what has no empty line after it is not dispatched.
A text that is longer dispatches no less (`events_prefix`), and the frames of a server whose data
has no line breaks are read as they were written (`read_dataFrame`, `read_namedFrame`).
-/

namespace EventStream

structure Event where
  type : List Char
  data : List Char
deriving DecidableEq

/-- The buffers of the client, and the events that it has dispatched. -/
structure Reader where
  line : List Char := []
  afterCr : Bool := false
  data : List Char := []
  type : List Char := []
  events : List Event := []
deriving DecidableEq

def carriageReturn : Char := Char.ofNat 13

/-- An empty line: the data buffer ends with the line feed of its last field. -/
def Reader.dispatch (r : Reader) : Reader :=
  if r.data = [] then { r with type := [] }
  else { r with
    data := []
    type := []
    events := r.events ++ [{
      type := if r.type = [] then "message".toList else r.type
      data := r.data.dropLast }] }

/-- A field; `id` and `retry` do not change what is dispatched. -/
def Reader.field (r : Reader) (name value : List Char) : Reader :=
  if name = "event".toList then { r with type := value }
  else if name = "data".toList then { r with data := r.data ++ value ++ ['\n'] }
  else r

/-- A value without the blank after the colon. -/
def dropBlank : List Char → List Char
  | ' ' :: rest => rest
  | value => value

/-- A line that is not empty; one that starts with a colon is a comment. -/
def Reader.process (r : Reader) (line : List Char) : Reader :=
  let name := line.takeWhile (· ≠ ':')
  if name = [] then r else r.field name (dropBlank (line.dropWhile (· ≠ ':')).tail)

def Reader.endLine (r : Reader) : Reader :=
  if r.line = [] then r.dispatch else { r.process r.line with line := [] }

def Reader.step (r : Reader) (c : Char) : Reader :=
  if c = '\n' then
    if r.afterCr then { r with afterCr := false } else r.endLine
  else if c = carriageReturn then { r.endLine with afterCr := true }
  else { r with line := r.line ++ [c], afterCr := false }

def Reader.read (r : Reader) (text : List Char) : Reader := text.foldl Reader.step r

/-- The events of a text. -/
def events (text : List Char) : List Event := (Reader.read {} text).events

/-! ## What was dispatched stays -/

variable {r : Reader}

@[simp] theorem read_append (r : Reader) (a b : List Char) :
    r.read (a ++ b) = (r.read a).read b := List.foldl_append

theorem events_dispatch (r : Reader) : r.events <+: r.dispatch.events := by
  unfold Reader.dispatch
  split
  · exact List.prefix_rfl
  · exact List.prefix_append _ _

@[simp] theorem events_field (r : Reader) (name value : List Char) :
    (r.field name value).events = r.events := by
  unfold Reader.field
  split
  · rfl
  · split <;> rfl

@[simp] theorem events_process (r : Reader) (line : List Char) :
    (r.process line).events = r.events := by
  unfold Reader.process
  dsimp only
  split
  · rfl
  · exact events_field _ _ _

theorem events_endLine (r : Reader) : r.events <+: r.endLine.events := by
  unfold Reader.endLine
  split
  · exact events_dispatch r
  · dsimp only
    simp only [events_process, List.prefix_rfl]

theorem events_step (r : Reader) (c : Char) : r.events <+: (r.step c).events := by
  unfold Reader.step
  split
  · split
    · exact List.prefix_rfl
    · exact events_endLine r
  · split
    · exact events_endLine r
    · exact List.prefix_rfl

theorem events_read (r : Reader) (text : List Char) : r.events <+: (r.read text).events := by
  induction text generalizing r with
  | nil => exact List.prefix_rfl
  | cons c text ih => exact (events_step r c).trans (ih (r.step c))

/-- What has arrived of a text dispatches the first of its events. -/
theorem events_prefix {received text : List Char} (h : received <+: text) :
    events received <+: events text := by
  obtain ⟨rest, rfl⟩ := h
  unfold events
  rw [read_append]
  exact events_read _ rest

/-! ## Frames -/

/-- A text that is one line. -/
def OneLine (text : List Char) : Prop := ∀ c ∈ text, c ≠ '\n' ∧ c ≠ carriageReturn

theorem OneLine.append {a b : List Char} (ha : OneLine a) (hb : OneLine b) : OneLine (a ++ b) := by
  intro c hc
  rcases List.mem_append.mp hc with hc | hc
  · exact ha c hc
  · exact hb c hc

instance (text : List Char) : Decidable (OneLine text) :=
  List.decidableBAll (fun c => c ≠ '\n' ∧ c ≠ carriageReturn) text

/-- Between two events. -/
structure Reader.Between (r : Reader) : Prop where
  line : r.line = []
  afterCr : r.afterCr = false
  data : r.data = []
  type : r.type = []

/-- `data: …` and an empty line. -/
def dataFrame (data : List Char) : List Char := "data: ".toList ++ data ++ ['\n', '\n']

/-- `event: …`, `data: …` and an empty line. -/
def namedFrame (name data : List Char) : List Char :=
  "event: ".toList ++ name ++ '\n' :: dataFrame data

theorem read_chars {text : List Char} (htext : OneLine text) (hcr : r.afterCr = false) :
    r.read text = { r with line := r.line ++ text } := by
  induction text generalizing r with
  | nil =>
      rw [List.append_nil]
      rfl
  | cons c text ih =>
      obtain ⟨hlf, hreturn⟩ := htext c List.mem_cons_self
      have hstep : r.step c = { r with line := r.line ++ [c], afterCr := false } := by
        unfold Reader.step
        rw [if_neg hlf, if_neg hreturn]
      change (r.step c).read text = _
      rw [hstep, ih (fun d hd => htext d (List.mem_cons_of_mem c hd)) rfl]
      dsimp only
      rw [List.append_assoc, List.singleton_append, hcr]

/-- A line is processed when it ends. -/
theorem read_line {line : List Char} (hline : OneLine line) (hne : line ≠ []) (hr : r.line = [])
    (hcr : r.afterCr = false) :
    r.read (line ++ ['\n'])
      = { ({ r with line := line } : Reader).process line with line := [] } := by
  have hstep : ∀ s : Reader, s.line = line → s.afterCr = false →
      s.read ['\n'] = { s.process line with line := [] } := by
    intro s hs hscr
    change s.step '\n' = _
    unfold Reader.step Reader.endLine
    rw [if_pos rfl, if_neg (by simp [hscr]), hs, if_neg hne]
  rw [read_append, read_chars hline hcr, hr, List.nil_append]
  exact hstep _ rfl hcr

theorem process_data (r : Reader) (data : List Char) :
    r.process ("data: ".toList ++ data) = { r with data := r.data ++ data ++ ['\n'] } := by
  rfl

theorem process_event (r : Reader) (name : List Char) :
    r.process ("event: ".toList ++ name) = { r with type := name } := by
  rfl

/-- A frame with a type set before it. -/
theorem read_dataFrame_typed {data : List Char} (hdata : OneLine data) (hline : r.line = [])
    (hcr : r.afterCr = false) (hbuffer : r.data = []) :
    r.read (dataFrame data) = { r with
      type := []
      events := r.events ++ [{
        type := if r.type = [] then "message".toList else r.type
        data := data }] } := by
  have hlabel : OneLine "data: ".toList := by decide
  have hsplit : dataFrame data = ("data: ".toList ++ data ++ ['\n']) ++ ['\n'] := by
    unfold dataFrame
    rw [List.append_assoc _ ['\n'] ['\n']]
    rfl
  rw [hsplit, read_append, read_line (hlabel.append hdata) (by simp) hline hcr, process_data]
  change Reader.step _ '\n' = _
  unfold Reader.step Reader.endLine Reader.dispatch
  simp [hcr, hbuffer, hline]

theorem read_dataFrame {data : List Char} (hr : r.Between) (hdata : OneLine data) :
    r.read (dataFrame data) = { r with
      events := r.events ++ [{ type := "message".toList, data := data }] } := by
  rw [read_dataFrame_typed hdata hr.line hr.afterCr hr.data, if_pos hr.type]
  obtain ⟨-, -, -, htype⟩ := hr
  rw [htype]

theorem read_namedFrame {name data : List Char} (hr : r.Between) (hname : OneLine name)
    (hne : name ≠ []) (hdata : OneLine data) :
    r.read (namedFrame name data) = { r with events := r.events ++ [⟨name, data⟩] } := by
  have hlabel : OneLine "event: ".toList := by decide
  have hsplit : namedFrame name data = ("event: ".toList ++ name ++ ['\n']) ++ dataFrame data := by
    unfold namedFrame
    rw [List.append_assoc, List.append_assoc, List.singleton_append, List.append_assoc]
  obtain ⟨line, afterCr, buffer, type, events⟩ := r
  obtain ⟨rfl, rfl, rfl, rfl⟩ := hr
  have htyped := @read_dataFrame_typed ⟨[], false, [], name, events⟩ data hdata rfl rfl rfl
  rw [if_neg hne] at htyped
  rw [hsplit, read_append, read_line (hlabel.append hname) (by simp) rfl rfl, process_event]
  exact htyped

end EventStream
