import Metering.Proofs.NaNs.Unheard
import Metering.Proofs.Passes.Contract
import Metering.Proofs.Passes.Trace

/-!
# Passes that are Told Something Else

What callbacks observe can be changed on its way to the passes, for instance by leaving observations
out. If every call ends as it did and each stream that a pass collects sees the same all the same, then
nothing comes of it: the pass gives the same verdict, delivers the same batch and leaves the same
streams, and so does everything that collects readers.
-/

namespace Metering

variable {α σ : Type}

/-- The responder whose performances are changed before anyone sees them. -/
def retold (f : Performance α → Performance α) (respond : Responder σ α) : Responder σ α :=
  fun known c => (f (respond known c).1, (respond known c).2)

theorem retold_id (respond : Responder σ α) : retold id respond = respond := rfl

/-- Answers of which the performances are changed. -/
def Answer.retold (f : Performance α → Performance α) (answers : List (List (Answer α))) :
    List (List (Answer α)) := answers.map (·.map fun a => (a.1, f a.2))

namespace System

variable {f : Performance α → Performance α} (respond : Responder σ α) (known : σ)

theorem callAll_retold (calls : List Call) :
    callAll (retold f respond) known calls =
      ((callAll respond known calls).1.map fun a => (a.1, f a.2), (callAll respond known calls).2) := by
  induction calls generalizing known with
  | nil => rfl
  | cons c rest ih => simp only [callAll, ih, retold, List.map_cons]

theorem callProviders_retold (calls : List (List Call)) :
    callProviders (retold f respond) known calls =
      (Answer.retold f (callProviders respond known calls).1,
        (callProviders respond known calls).2) := by
  induction calls generalizing known with
  | nil => rfl
  | cons group rest ih => simp only [callProviders, callAll_retold, ih, Answer.retold, List.map_cons]

theorem answers_retold (sys : System α) (reader : Reader α) :
    sys.answers (retold f respond) known reader =
      Answer.retold f (sys.answers respond known reader) := by
  rw [answers, callProviders_retold, answers]

end System

/-- Whether the streams that a pass collects see the same if performances are changed. -/
def Pass.SeesSame (f : Performance α → Performance α) (respond : Responder σ α) (pass : Pass σ α) :
    Prop :=
  ∀ reader, pass.system.readers[pass.reader]? = some reader →
    ∀ rs ∈ reader.streams.values, ∀ o, rs.observer? = some o →
      seenObservations (pass.system.answers (retold f respond) pass.known reader) o =
        seenObservations (pass.system.answers respond pass.known reader) o

/-- A stream has the same metric, and becomes the same, if it sees the same. -/
theorem RegisteredStream.metric?_collected_congr [Quantity α] {rs : RegisteredStream α}
    {answers answers' : List (List (Answer α))}
    (h : ∀ o, rs.observer? = some o → seenObservations answers' o = seenObservations answers o)
    (time : Time) :
    rs.metric? (System.observed (answers'.map System.observationPass)) time =
        rs.metric? (System.observed (answers.map System.observationPass)) time ∧
      rs.collected (System.observed (answers'.map System.observationPass)) time =
        rs.collected (System.observed (answers.map System.observationPass)) time := by
  rw [metric?_eq_metricGiven, metric?_eq_metricGiven, collected_eq_collectedGiven,
    collected_eq_collectedGiven]
  cases hsource : rs.source with
  | synchronous stream => simp only [metricGiven, dataGiven, collectedGiven, hsource, and_self]
  | asynchronous stream o =>
    have hseen := h o (by simp only [observer?, hsource])
    simp only [metricGiven, dataGiven, collectedGiven, hsource, hseen, and_self]

/-- A reader exports the same, and becomes the same, if its streams see the same. -/
theorem Reader.batch_collected_congr [Quantity α] {reader : Reader α}
    {answers answers' : List (List (Answer α))}
    (h : ∀ rs ∈ reader.streams.values, ∀ o, rs.observer? = some o →
      seenObservations answers' o = seenObservations answers o) (time : Time) :
    reader.batch (System.observed (answers'.map System.observationPass)) time =
        reader.batch (System.observed (answers.map System.observationPass)) time ∧
      reader.collected (System.observed (answers'.map System.observationPass)) time =
        reader.collected (System.observed (answers.map System.observationPass)) time := by
  have hstream {rs : RegisteredStream α} (hrs : rs ∈ reader.streams.values) :=
    RegisteredStream.metric?_collected_congr (h rs hrs) time
  refine ⟨List.filterMap_congr fun rs hrs => (hstream hrs).1, ?_⟩
  have hstreams : (reader.streams.mapValues fun rs =>
        rs.collected (System.observed (answers'.map System.observationPass)) time) =
      reader.streams.mapValues fun rs =>
        rs.collected (System.observed (answers.map System.observationPass)) time := by
    -- Streams keep their numbers, so the tables are compared entry by entry.
    refine Table.ext (List.map_congr_left fun e he => ?_)
    exact congrArg (e.1, ·) (hstream (List.mem_map_of_mem (f := (·.2)) he)).2
  simp only [Reader.collected, hstreams]

/-! ## One pass -/

section

variable {f : Performance α → Performance α} (hf : ∀ p, (f p).ending = p.ending)
include hf

/-- Of the lines about a call, only how it ended is more than what was dropped. -/
theorem Performance.events_retold (timeout : Nat) (c : Call) (p : Performance α) :
    (((f p).events timeout c).map JournalEntry.event).filter (·.matters) =
      ((p.events timeout c).map JournalEntry.event).filter (·.matters) := by
  have hdropped (observations : List (Observation α)) :
      (((c.feed.outsiders observations).map Event.droppedOutsider).map
        (JournalEntry.event (α := α))).filter (·.matters) = [] := by
    refine List.filter_eq_nil_iff.mpr fun entry hentry => ?_
    obtain ⟨e, he, rfl⟩ := List.mem_map.mp hentry
    obtain ⟨n, -, rfl⟩ := List.mem_map.mp he
    simp [JournalEntry.matters, Event.drops]
  simp only [events, List.map_append, List.filter_append, hdropped, hf]

/-- All lines about the calls of a pass are the same but for those about what was dropped. -/
theorem Answer.events_retold (timeout : Nat) (answers : List (List (Answer α))) :
    ((Answer.retold f answers).flatten.flatMap fun a =>
        (a.2.events timeout a.1).map JournalEntry.event).filter (·.matters) =
      (answers.flatten.flatMap fun a =>
        (a.2.events timeout a.1).map JournalEntry.event).filter (·.matters) := by
  rw [Answer.retold, ← List.map_flatten, List.flatMap_map, List.filter_flatMap, List.filter_flatMap]
  exact List.flatMap_congr fun a _ => Performance.events_retold hf timeout a.1 a.2

/-- As many calls fail. -/
theorem System.foldl_failures_retold (answers : List (List (Answer α))) :
    ((Answer.retold f answers).map observationPass).foldl (fun (n : Nat) pass => n + pass.failures) 0 =
      (answers.map observationPass).foldl (fun (n : Nat) pass => n + pass.failures) 0 := by
  rw [foldl_failures, foldl_failures, Answer.retold, ← List.map_flatten, List.countP_map]
  refine List.countP_congr fun a _ => ?_
  simp only [Function.comp_apply, hf]

variable [Quantity α] {sys sys' : System α}

/-- A pass that is told something else exports the same and does the same to the reader, if its
streams see the same. -/
theorem System.Unheard.exportPass (h : Unheard sys sys') {r : Nat} {reader : Reader α}
    (hr : sys.readers[r]? = some reader) {answers : List (List (Answer α))}
    (hseen : ∀ rs ∈ reader.streams.values, ∀ o, rs.observer? = some o →
      seenObservations (Answer.retold f answers) o = seenObservations answers o) :
    (sys.exportPass r reader answers).1 = (sys'.exportPass r reader (Answer.retold f answers)).1 ∧
      Unheard (sys.exportPass r reader answers).2
        (sys'.exportPass r reader (Answer.retold f answers)).2 := by
  let table (answers : List (List (Answer α))) := observed (answers.map observationPass)
  obtain ⟨hbatch, hcollected⟩ := Reader.batch_collected_congr hseen sys.now
  have hfailures := foldl_failures_retold hf answers
  -- The reader becomes the same in both systems.
  let left (answers : List (List (Answer α))) (found : Reader α) : Reader α :=
    { found.collected (table answers) sys.now with
      exporter := (found.exporter.deliver (reader.batch (table answers) sys.now)).2 }
  have hleft : Unheard (sys.modifyReader r (left answers))
      (sys'.modifyReader r (left (Answer.retold f answers))) := by
    have hsame : left (Answer.retold f answers) reader = left answers reader := by
      simp only [left, hcollected, table, hbatch]
    refine ⟨h.1, ?_⟩
    show ({ sys' with readers := sys'.readers.modify r (left (Answer.retold f answers)) } :
      System α) = _
    rw [h.readers_eq, modify_congr_of_some hr hsame, h.2]
    rfl
  refine ⟨?_, ?_⟩
  · show (_ && _ == 0) = (_ && _ == 0)
    rw [hfailures]
    rfl
  · unfold System.exportPass
    rw [h.now_eq]
    refine hleft.write ?_
    simp only [List.filter_append, Answer.events_retold hf, hfailures, hbatch]

namespace System

/-- Whether two collections gave the same verdict, with the same knowledge, and left systems that are
the same but for lines about what was dropped. -/
def SameOutcome (x y : Bool × σ × System α) : Prop :=
  x.1 = y.1 ∧ x.2.1 = y.2.1 ∧ Unheard x.2.2 y.2.2

variable {respond : Responder σ α} {known : σ}

namespace Unheard

theorem pass (h : Unheard sys sys') (r : Nat)
    (hseen : Pass.SeesSame f respond ⟨r, known, sys⟩) :
    SameOutcome (sys.pass respond known r) (sys'.pass (retold f respond) known r) := by
  have hcalls (reader : Reader α) : sys'.calls reader = sys.calls reader := by
    simp only [calls, h.providers_eq]
  unfold System.pass
  rw [h.readers_eq]
  cases hr : sys.readers[r]? with
  | none => exact ⟨rfl, rfl, h⟩
  | some reader =>
    have hstreams := hseen reader hr
    simp only [answers_retold] at hstreams
    obtain ⟨hverdict, hleft⟩ := h.exportPass hf hr hstreams
    simp only [hcalls, callProviders_retold]
    exact ⟨hverdict, rfl, hleft⟩

theorem collect (h : Unheard sys sys') (r : Nat)
    (hseen : ∀ pass ∈ passOf known sys r, pass.SeesSame f respond) :
    SameOutcome (sys.collect respond known r) (sys'.collect (retold f respond) known r) := by
  unfold System.collect
  rw [h.isClosed_eq]
  split
  · exact ⟨rfl, rfl, h⟩
  · rename_i hopen
    refine h.pass hf r (hseen _ ?_)
    rw [passOf, if_neg hopen]
    exact List.mem_singleton_self _

theorem flushReader (h : Unheard sys sys') (r : Nat)
    (hseen : ∀ pass ∈ passOf known sys r, pass.SeesSame f respond) :
    SameOutcome (sys.flushReader respond known r) (sys'.flushReader (retold f respond) known r) := by
  unfold System.flushReader
  rw [h.isClosed_eq]
  split
  · exact ⟨rfl, rfl, h⟩
  · rename_i hopen
    obtain ⟨hverdict, hknown, hleft⟩ := h.pass hf r (hseen ⟨r, known, sys⟩ (by
      rw [passOf, if_neg hopen]
      exact List.mem_singleton_self _))
    refine ⟨?_, hknown, hleft.write rfl⟩
    simp only [hverdict, hleft.readers_eq]

theorem shutdownReader (h : Unheard sys sys') (r : Nat)
    (hseen : ∀ pass ∈ lastPassOf known sys r, pass.SeesSame f respond) :
    SameOutcome (sys.shutdownReader respond known r)
      (sys'.shutdownReader (retold f respond) known r) := by
  unfold System.shutdownReader
  rw [h.isClosed_eq]
  split
  · exact ⟨rfl, rfl, h⟩
  · rename_i hopen
    -- The last pass collects a reader that is closed already.
    have hclosing := h.modifyReader r fun reader => { reader with closed := true }
    obtain ⟨hverdict, hknown, hleft⟩ := hclosing.pass hf r (hseen ⟨r, known, _⟩ (by
      rw [lastPassOf, if_neg hopen]
      exact List.mem_singleton_self _))
    refine ⟨?_, hknown, (hleft.write rfl).modifyReader r _⟩
    simp only [hverdict, hleft.readers_eq]

omit hf [Quantity α] in
/-- What does the same to both systems with each reader does the same with one after the other. -/
theorem eachReader {passOf : σ → System α → Nat → List (Pass σ α)}
    {act act' : σ → System α → Nat → Bool × σ × System α}
    (hact : ∀ known sys sys' r, Unheard sys sys' →
      (∀ pass ∈ passOf known sys r, pass.SeesSame f respond) →
        SameOutcome (act known sys r) (act' known sys' r))
    (h : Unheard sys sys') (readers : List Nat)
    (hseen : ∀ pass ∈ eachPassOf passOf act known sys readers, pass.SeesSame f respond) :
    SameOutcome (System.eachReader act known sys readers)
      (System.eachReader act' known sys' readers) := by
  induction readers generalizing sys sys' known with
  | nil => exact ⟨rfl, rfl, h⟩
  | cons r rest ih =>
    -- The later readers go on from what the first one left, in either system.
    obtain ⟨hverdict, hknown, hleft⟩ :=
      hact known sys sys' r h fun pass hpass => hseen pass (List.mem_append_left _ hpass)
    obtain ⟨hverdict', hknown', hleft'⟩ :=
      ih hleft fun pass hpass => hseen pass (List.mem_append_right _ hpass)
    simp only [System.eachReader, ← hknown]
    exact ⟨congrArg₂ (· && ·) hverdict hverdict', hknown', hleft'⟩

theorem flush (h : Unheard sys sys') (p : Nat)
    (hseen : ∀ pass ∈ sys.passesOf respond known (.flush p), pass.SeesSame f respond) :
    SameOutcome (sys.flush respond known p) (sys'.flush (retold f respond) known p) := by
  unfold System.flush
  rw [h.providers_eq]
  simp only [passesOf] at hseen
  cases hp : sys.providers[p]? with
  | none => exact ⟨rfl, rfl, h⟩
  | some provider =>
    simp only [hp] at hseen ⊢
    split
    · exact ⟨rfl, rfl, h⟩
    · rename_i hopen
      rw [if_neg hopen] at hseen
      refine eachReader ?_ h provider.readers hseen
      intro known sys sys' r h hseen
      exact h.flushReader hf r hseen

theorem shutdown (h : Unheard sys sys') (p : Nat)
    (hseen : ∀ pass ∈ sys.passesOf respond known (.shutdown p), pass.SeesSame f respond) :
    SameOutcome (sys.shutdown respond known p) (sys'.shutdown (retold f respond) known p) := by
  unfold System.shutdown
  rw [h.providers_eq]
  simp only [passesOf] at hseen
  cases hp : sys.providers[p]? with
  | none => exact ⟨rfl, rfl, h⟩
  | some provider =>
    simp only [hp] at hseen ⊢
    split
    · exact ⟨rfl, rfl, h⟩
    · rename_i hopen
      rw [if_neg hopen] at hseen
      have hclosing := h.modifyProvider p fun provider => { provider with closed := true }
      refine eachReader ?_ hclosing provider.readers hseen
      intro known sys sys' r h hseen
      exact h.shutdownReader hf r hseen

/-- A command does the same if its passes are told something else, and gives the same. -/
theorem perform_retold (h : Unheard sys sys') (c : Command α)
    (hseen : ∀ pass ∈ sys.passesOf respond known c, pass.SeesSame f respond) :
    (sys.perform respond known c).1 = (sys'.perform (retold f respond) known c).1 ∧
      (sys.perform respond known c).2.1 = (sys'.perform (retold f respond) known c).2.1 ∧
      Unheard (sys.perform respond known c).2.2 (sys'.perform (retold f respond) known c).2.2 := by
  cases c with
  | collect r =>
    obtain ⟨hverdict, hknown, hleft⟩ := h.collect hf r hseen
    exact ⟨congrArg Reply.verdict hverdict, hknown, hleft⟩
  | flushReader r =>
    obtain ⟨hverdict, hknown, hleft⟩ := h.flushReader hf r hseen
    exact ⟨congrArg Reply.verdict hverdict, hknown, hleft⟩
  | shutdownReader r =>
    obtain ⟨hverdict, hknown, hleft⟩ := h.shutdownReader hf r hseen
    exact ⟨congrArg Reply.verdict hverdict, hknown, hleft.reclaim⟩
  | flush p =>
    obtain ⟨hverdict, hknown, hleft⟩ := h.flush hf p hseen
    exact ⟨congrArg Reply.verdict hverdict, hknown, hleft⟩
  | shutdown p =>
    obtain ⟨hverdict, hknown, hleft⟩ := h.shutdown hf p hseen
    exact ⟨congrArg Reply.verdict hverdict, hknown, hleft.reclaim⟩
  | _ =>
    -- Nothing else calls callbacks.
    exact h.perform respond known _

end Unheard

end System

end

end Metering
