import Metering.Session.Program
import Metering.System.Command
import Metering.System.Description

/-!
# Sessions

A run of operations on a system in which handles and registrations go by names, and callbacks follow programs. Each
step gives an answer, the number of streams of every reader that is still held, and the part of the journal that it
wrote.
-/

namespace Metering

/-- A system with names for what a program holds. -/
structure Session where
  system : System Float
  slots : Table String Nat
  registrations : Table String CallbackRef
  bill : Playbill

/-- What is to be described. -/
inductive Session.Subject where
  | handle (slot : String)
  | reader (r : Nat)
  | registration (name : String)
  | meter (p : Nat) (scope : Scope)
  | provider (p : Nat)

/-- A step of a session. Where a slot is filled again, what it held is dropped last. -/
inductive Session.Step where
  | advance (nanos : Nat)
  | rewind (nanos : Nat)
  | create (slot : String) (p : Nat) (scope : Scope) (instrument : Instrument Float)
      (callbacks : List (Program (Option String)))
  | clone (slot source : String)
  | drop (slot : String)
  | record (slot : String) (values : List Float) (attributes : List Attribute)
  | register (name slot : String) (program : Program (Option String))
  | batch (name : String) (p : Nat) (scope : Scope) (slots : List String) (program : Program (Option String))
  | detach (name : String)
  | forget (name : String)
  | collect (r : Nat)
  | flushReader (r : Nat)
  | shutdownReader (r : Nat)
  | flush (p : Nat)
  | shutdown (p : Nat)
  | status
  | view (p : Nat) (view : View Float)
  | reset (r : Nat)
  | dropProvider (p : Nat)
  | dropReader (r : Nat)
  | calls
  | inspect (subject : Session.Subject)

/-- The answer to a step. -/
inductive Session.Answer where
  | nothing
  | ok
  | refused (e : Error Float)
  | number (n : Nat)
  | verdict (b : Bool)
  | text (s : String)
  /-- Whether readers and providers are closed, as far as they are held. -/
  | status (readers providers : List (Option Bool))
  /-- The length of the last batch kept, before and after a reset. -/
  | lengths (last after : Option Nat)
  | calls (called : List (String × Nat)) (notes : List (String × List String))

/-- What a step brings about. -/
structure Session.Outcome where
  answer : Session.Answer
  /-- The number of streams of each reader, as far as it is held. -/
  streams : List (Option Nat)
  journal : List (JournalEntry Float)

namespace Session

/-! ## Commands -/

/-- Does what a command says, callbacks following their programs. -/
def send (s : Session) (c : Command Float) : Reply Float × Session :=
  let (reply, bill, system) := s.system.perform Playbill.respond s.bill c
  (reply, { s with bill, system })

/-- Does what a command says, and leaves the reply. -/
def sendOnly (s : Session) (c : Command Float) : Session := (s.send c).2

/-- The answer that a reply amounts to when nothing was made. -/
def plainAnswer : Reply Float → Answer
  | .refused e => .refused e
  | .verdict ok => .verdict ok
  | _ => .nothing

/-- Does what a command says, and answers with the reply. -/
def pass (s : Session) (c : Command Float) : Answer × Session :=
  let (reply, s) := s.send c
  (plainAnswer reply, s)

/-! ## Opening -/

/-- Registers views one after the other, and lists what became of them. -/
def addViews (s : Session) : List (Nat × View Float) → List (Option (Error Float)) × Session
  | [] => ([], s)
  | (p, v) :: rest =>
    let (reply, s) := s.send (.registerView p v)
    let (refusals, s) := s.addViews rest
    ((match reply with
      | .refused e => some e
      | _ => none) :: refusals, s)

/-- Opens a session with readers and with providers that get views; also says what became of the views. -/
def opened (readers : List (Reader Float)) (providers : List (Provider Float × List (View Float))) :
    List (Option (Error Float)) × Session :=
  let s : Session :=
    { system := .opened readers (providers.map (·.1))
      slots := Table.empty
      registrations := Table.empty
      bill := .empty }
  s.addViews (providers.zipIdx.flatMap fun e => e.1.2.map fun v => (e.2, v))

/-! ## Names -/

/-- The handle in a slot. -/
def handle? (s : Session) (slot : String) : Option Nat := s.slots.find? slot

/-- The asynchronous instrument of the handle in a slot. -/
def observer? (s : Session) (slot : String) : Option ObserverRef := do
  let h ← s.handle? slot
  let (_, b) ← s.system.instrument? h
  let number ← b.observer
  pure ⟨b.provider, number⟩

/-- Puts a handle into a slot, then drops the handle that was in it. -/
def fill (s : Session) (slot : String) (handle : Nat) : Session :=
  let filled := { s with slots := s.slots.insert slot handle }
  match s.handle? slot with
  | some old => filled.sendOnly (.drop old)
  | none => filled

/-- A program with its slots looked up; an observation that names none is on the given instrument. -/
def resolve (s : Session) (own : ObserverRef) (program : Program (Option String)) : Program ObserverRef :=
  program.mapTarget fun slot => (slot.bind s.observer?).getD own

/-- The scope of the meter that a provider gives for a scope. -/
def meterScope (s : Session) (p : Nat) (scope : Scope) : Scope :=
  ((s.system.providers[p]?).map (·.meterScope scope)).getD scope

/-! ## Steps -/

/-- Asks for an instrument, with programs for its callbacks. -/
def create (s : Session) (slot : String) (p : Nat) (scope : Scope) (i : Instrument Float)
    (programs : List (Program (Option String))) : Answer × Session :=
  match s.send (.create p scope i programs.length) with
  | (.created c, s) =>
    match c.observer with
    | none => (.ok, s.fill slot c.handle)
    | some number =>
      -- Callbacks are registered in the order of their programs.
      let roles : List (CallbackRef × Role) := (c.callbacks.zip programs).map fun e =>
        (e.1, { feed := .single number, program := s.resolve ⟨p, number⟩ e.2 })
      (.number number, { s with bill := s.bill.assignAll roles }.fill slot c.handle)
  | (reply, s) => (plainAnswer reply, s)

/-- Keeps a registered callback under a name, with its role. -/
def enlist (s : Session) (name : String) (c : CallbackRef) (role : Role) : Answer × Session :=
  (.number c.number,
    { s with registrations := s.registrations.insert name c, bill := s.bill.assign c role })

/-- Registers a callback for the instrument of a slot. -/
def register (s : Session) (name slot : String) (program : Program (Option String)) : Answer × Session :=
  match s.handle? slot, s.observer? slot with
  | some h, some own =>
    let role : Role := { feed := .single own.number, program := s.resolve own program }
    match s.send (.register h) with
    | (.callback c, s) => s.enlist name c role
    | (reply, s) => (plainAnswer reply, s)
  | _, _ => (.nothing, s)

/-- Registers one callback for the instruments of several slots; it keeps the handles that its observations name. -/
def batch (s : Session) (name : String) (p : Nat) (scope : Scope) (slots : List String)
    (program : Program (Option String)) : Answer × Session :=
  -- What the program observes need not be what it is registered for.
  let used := (program.targets.filterMap id).filterMap s.handle?
  let feed := Feed.batch ((slots.filterMap s.observer?).map (·.number))
  let role : Role := { feed, program := s.resolve default program }
  match s.send (.registerBatch p scope (slots.filterMap s.handle?) used) with
  | (.callback c, s) => s.enlist name c role
  | (reply, s) => (plainAnswer reply, s)

/-- The text of a subject. A meter that is described is asked for first. -/
def inspect (s : Session) : Subject → Answer × Session
  | .handle slot =>
    match (s.handle? slot).bind s.system.instrument? with
    | some (_, b) => (.text (s.system.handleDescribed b), s)
    | none => (.nothing, s)
  | .reader r =>
    match s.system.readers[r]? with
    | some reader => (.text reader.described, s)
    | none => (.nothing, s)
  | .registration name =>
    match s.registrations.find? name with
    | some c => (.text c.described, s)
    | none => (.nothing, s)
  | .meter p scope => (.text (s.meterScope p scope).meterDescribed, s.sendOnly (.meter p scope))
  | .provider p =>
    match s.system.providers[p]? with
    | some provider => (.text (s.system.providerDescribed provider), s)
    | none => (.nothing, s)

/-- Which readers and providers are closed. -/
def status (s : Session) : Answer :=
  .status (s.system.readers.map fun r => if r.held then some r.closed else none)
    (s.system.providers.map fun p => if p.held then some p.closed else none)

/-- The length of the last batch that a reader's exporter keeps. -/
def lastLength (s : Session) (r : Nat) : Option Nat := s.system.readers[r]?.bind (·.exporter.lastLength)

/-- Performs a step. -/
def perform (s : Session) : Step → Answer × Session
  | .advance nanos => s.pass (.advance nanos)
  | .rewind nanos => s.pass (.rewind nanos)
  | .create slot p scope i programs => s.create slot p scope i programs
  | .clone slot source =>
    match s.handle? source with
    | none => (.nothing, s)
    | some h =>
      match s.send (.clone h) with
      | (.handle clone, s) => (.nothing, s.fill slot clone)
      | (_, s) => (.nothing, s)
  | .drop slot =>
    match s.handle? slot with
    | none => (.verdict false, s)
    | some h => (.verdict true, { s with slots := s.slots.erase slot }.sendOnly (.drop h))
  | .record slot values attributes =>
    match s.handle? slot with
    | none => (.nothing, s)
    | some h => (.nothing, values.foldl (fun s v => s.sendOnly (.record h v attributes fun _ => 0)) s)
  | .register name slot program => s.register name slot program
  | .batch name p scope slots program => s.batch name p scope slots program
  | .detach name =>
    match s.registrations.find? name with
    | none => (.nothing, s)
    | some c => { s with registrations := s.registrations.erase name }.pass (.detach c)
  | .forget name => (.nothing, { s with registrations := s.registrations.erase name })
  | .collect r => s.pass (.collect r)
  | .flushReader r => s.pass (.flushReader r)
  | .shutdownReader r => s.pass (.shutdownReader r)
  | .flush p => s.pass (.flush p)
  | .shutdown p => s.pass (.shutdown p)
  | .status => (s.status, s)
  | .view p v =>
    match s.send (.registerView p v) with
    | (.done, s) => (.ok, s)
    | (reply, s) => (plainAnswer reply, s)
  | .reset r =>
    let after := s.sendOnly (.empty r)
    (.lengths (s.lastLength r) (after.lastLength r), after)
  | .dropProvider p => s.pass (.dropProvider p)
  | .dropReader r => s.pass (.dropReader r)
  | .calls => (.calls s.bill.called.entries s.bill.notes.entries, s)
  | .inspect subject => s.inspect subject

/-- Performs a step with an empty journal, and says what it brought about. -/
def step (s : Session) (t : Step) : Outcome × Session :=
  -- The journal begins empty, so all it has afterwards is from this step.
  let (answer, s) := { s with system := { s.system with journal := [] } }.perform t
  ({ answer
     streams := s.system.readers.map fun r => if r.held then some r.streams.size else none
     journal := s.system.journal }, s)

/-- The outcomes of a list of steps. -/
def run (s : Session) : List Step → List Outcome
  | [] => []
  | t :: rest =>
    let (outcome, s) := s.step t
    outcome :: run s rest

end Session

end Metering
