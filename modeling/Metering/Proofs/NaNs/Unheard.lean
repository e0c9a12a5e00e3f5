import Metering.Proofs.Accounts.Delivery
import Metering.Proofs.Requests.Erasure

/-!
# Systems that Differ in What Was Dropped

When a measurement or an observation is dropped, a line in the log says so, and nothing else comes of
it. So two systems are compared that are the same in everything but such lines. No operation reads the
journal: each does the same to both, with the same result, and writes the same into both journals.
-/

namespace Metering

variable {α σ : Type}

/-- Whether an event is that something was dropped. -/
def Event.drops : Event α → Bool
  | .droppedNaN _ | .droppedDecrement .. | .droppedOutsider _ => true
  | .registeredStale .. | .callbackPanicked .. | .callbackTimedOut .. | .exportFailed _
  | .callbacksFailed _ => false

/-- Whether an entry of a journal is more than a line about something that was dropped. -/
def JournalEntry.matters : JournalEntry α → Bool
  | .call .. => true
  | .event e => !e.drops

/-- A delivery is more than a line in the log. -/
theorem deliveries_filter_matters (entries : List (JournalEntry α)) :
    deliveries (entries.filter (·.matters)) = deliveries entries := by
  rw [deliveries, List.filterMap_filter]
  refine List.filterMap_congr fun entry _ => ?_
  cases entry with
  | call r c => rfl
  | event e => cases e.drops <;> simp [JournalEntry.matters]

namespace System

/-- The system with another journal. -/
def withJournal (sys : System α) (journal : List (JournalEntry α)) : System α := { sys with journal }

/-- Whether two systems are the same but for lines about what was dropped. -/
def Unheard (sys sys' : System α) : Prop :=
  sys.journal.filter (·.matters) = sys'.journal.filter (·.matters) ∧
    sys' = sys.withJournal sys'.journal

namespace Unheard

variable {sys sys' sys'' : System α}

theorem refl (sys : System α) : Unheard sys sys := ⟨rfl, rfl⟩

theorem trans (h : Unheard sys sys') (k : Unheard sys' sys'') : Unheard sys sys'' := by
  refine ⟨h.1.trans k.1, ?_⟩
  rw [k.2, h.2]
  rfl

theorem now_eq (h : Unheard sys sys') : sys'.now = sys.now := by rw [h.2]; rfl

theorem readers_eq (h : Unheard sys sys') : sys'.readers = sys.readers := by rw [h.2]; rfl

theorem providers_eq (h : Unheard sys sys') : sys'.providers = sys.providers := by rw [h.2]; rfl

theorem isClosed_eq (h : Unheard sys sys') (r : Nat) : sys'.isClosed r = sys.isClosed r := by
  rw [isClosed, h.readers_eq, isClosed]

theorem modifyReader (h : Unheard sys sys') (r : Nat) (g : Reader α → Reader α) :
    Unheard (sys.modifyReader r g) (sys'.modifyReader r g) := by
  refine ⟨h.1, ?_⟩
  rw [h.2]
  rfl

theorem modifyProvider (h : Unheard sys sys') (p : Nat) (g : Provider α → Provider α) :
    Unheard (sys.modifyProvider p g) (sys'.modifyProvider p g) := by
  refine ⟨h.1, ?_⟩
  rw [h.2]
  rfl

theorem deliveries_eq (h : Unheard sys sys') : deliveries sys.journal = deliveries sys'.journal := by
  rw [← deliveries_filter_matters, h.1, deliveries_filter_matters]

/-- What was dropped may be written down or not. -/
theorem write_dropped {e : Event α} (he : e.drops = true) (sys : System α) :
    Unheard (sys.write [.event e]) sys := by
  refine ⟨?_, rfl⟩
  show (sys.journal ++ [JournalEntry.event e]).filter _ = _
  simp [JournalEntry.matters, he]

theorem write (h : Unheard sys sys') {entries entries' : List (JournalEntry α)}
    (hentries : entries.filter (·.matters) = entries'.filter (·.matters)) :
    Unheard (sys.write entries) (sys'.write entries') := by
  refine ⟨?_, ?_⟩
  · show (sys.journal ++ entries).filter _ = (sys'.journal ++ entries').filter _
    rw [List.filter_append, List.filter_append, h.1, hentries]
  · rw [h.2]
    rfl

/-- What gives the same and adds the same to the journal, whatever the journal is, can be done with
both. -/
theorem map {β : Type} {f : System α → β × System α} (h : Unheard sys sys')
    (hf : ∀ sys, ∃ entries, ∀ journal, f (withJournal sys journal) =
      ((f sys).1, (f sys).2.withJournal (journal ++ entries))) :
    (f sys).1 = (f sys').1 ∧ Unheard (f sys).2 (f sys').2 := by
  obtain ⟨entries, hentries⟩ := hf sys
  have hself : f sys = ((f sys).1, (f sys).2.withJournal (sys.journal ++ entries)) :=
    hentries sys.journal
  have hother : f sys' = ((f sys).1, (f sys).2.withJournal (sys'.journal ++ entries)) :=
    (congrArg f h.2).trans (hentries sys'.journal)
  have hjournal : (f sys).2.journal = sys.journal ++ entries :=
    congrArg (fun result => result.2.journal) hself
  rw [hother]
  refine ⟨rfl, ?_, rfl⟩
  show (f sys).2.journal.filter _ = (sys'.journal ++ entries).filter _
  rw [hjournal, List.filter_append, List.filter_append, h.1]

end Unheard

/-! ## Commands -/

/-- A provider that there is not has no meters to be replaced. -/
theorem recast_of_length_le (sys : System α) {m : Memory α} (h : sys.providers.length ≤ m.provider) :
    sys.recast m = sys.withJournal (m.journal ++ sys.journal) := by
  have hproviders : sys.providers.modify m.provider (fun provider => { provider with scopes := m.scopes }) =
      sys.providers := List.modify_eq_self h
  simp only [recast, hproviders]
  rfl

/-- An operation that gives the same on recast systems gives the same whatever the journal is, and
adds the same to it. -/
theorem exists_entries_of_recast {β : Type} {f : System α → β × System α} (bound : Nat)
    (hf : ∀ (m : Memory α) sys, bound ≤ m.provider →
      f (recast sys m) = ((f sys).1, (f sys).2.recast m)) (sys : System α) :
    ∃ entries, ∀ journal, f (sys.withJournal journal) =
      ((f sys).1, (f sys).2.withJournal (journal ++ entries)) := by
  let core := sys.withJournal []
  -- The number of a provider that there is neither before nor afterwards.
  let p := bound + core.providers.length + (f core).2.providers.length
  have hcore (journal : List (JournalEntry α)) : f (sys.withJournal journal) =
      ((f core).1, (f core).2.withJournal (journal ++ (f core).2.journal)) := by
    let m : Memory α := ⟨p, [], journal⟩
    have hbefore : core.recast m = sys.withJournal journal := by
      rw [recast_of_length_le core (show core.providers.length ≤ p by omega)]
      exact congrArg sys.withJournal (List.append_nil journal)
    have hafter : (f core).2.recast m = (f core).2.withJournal (journal ++ (f core).2.journal) :=
      recast_of_length_le _ (show (f core).2.providers.length ≤ p by omega)
    rw [← hbefore, hf m core (show bound ≤ p by omega), hafter]
  refine ⟨(f core).2.journal, fun journal => ?_⟩
  have hself := hcore sys.journal
  rw [hcore, show f sys = _ from hself]
  rfl

namespace Unheard

variable {sys sys' : System α}

theorem reclaim (h : Unheard sys sys') : Unheard sys.reclaim sys'.reclaim := by
  let f (sys : System α) : Unit × System α := ((), sys.reclaim)
  have hf (m : Memory α) (sys : System α) (_ : 0 ≤ m.provider) :
      f (sys.recast m) = ((f sys).1, (f sys).2.recast m) := Prod.ext rfl (recast_reclaim m sys)
  exact (h.map (exists_entries_of_recast _ hf)).2

/-- A command does the same to both systems, and gives the same. -/
theorem perform [Quantity α] (h : Unheard sys sys') (respond : Responder σ α) (known : σ)
    (c : Command α) :
    (sys.perform respond known c).1 = (sys'.perform respond known c).1 ∧
      (sys.perform respond known c).2.1 = (sys'.perform respond known c).2.1 ∧
      Unheard (sys.perform respond known c).2.2 (sys'.perform respond known c).2.2 := by
  let f (sys : System α) : (Reply α × σ) × System α :=
    let result := sys.perform respond known c
    ((result.1, result.2.1), result.2.2)
  have hf (m : Memory α) (sys : System α) (hbound : c.asked?.getD 0 + 1 ≤ m.provider) :
      f (sys.recast m) = ((f sys).1, (f sys).2.recast m) := by
    have hasked : c.asked? ≠ some m.provider := by
      intro hasked
      rw [hasked, Option.getD_some] at hbound
      omega
    simp only [f, recast_perform m respond known sys hasked]
  obtain ⟨hresult, hleft⟩ := h.map (exists_entries_of_recast _ hf)
  exact ⟨congrArg (·.1) hresult, congrArg (·.2) hresult, hleft⟩

end Unheard

end System

end Metering
