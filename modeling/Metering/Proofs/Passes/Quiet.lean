import Metering.Proofs.Accounts.Delivery
import Metering.Proofs.Steps.Upkeep

/-!
# What is Done without a Delivery

Nothing is handed to an exporter but by a pass. Whatever else is done to a system may write events
and questions to the journal, and leaves the deliveries in it as they are.
-/

namespace Metering

variable {α : Type}

theorem deliveries_eq_nil_of_asks {readers : List Nat} {entries : List (JournalEntry α)}
    (h : ∀ entry ∈ entries, entry.AsksOneOf readers) : deliveries entries = [] := by
  refine List.filterMap_eq_nil_iff.mpr fun entry hentry => ?_
  obtain ⟨r, -, call, rfl, hasks⟩ := h entry hentry
  cases call with
  | temporality _ | aggregation _ => rfl
  | deliver _ | flush | shutdown => cases hasks

namespace System

/-- Whether the journal of a later system has the same deliveries. -/
def Quiet (sys sys' : System α) : Prop := deliveries sys'.journal = deliveries sys.journal

namespace Quiet

variable {sys sys' sys'' : System α}

theorem refl (sys : System α) : Quiet sys sys := rfl

theorem trans (h : Quiet sys sys') (k : Quiet sys' sys'') : Quiet sys sys'' := Eq.trans k h

theorem of_journal_eq (h : sys'.journal = sys.journal) : Quiet sys sys' := congrArg deliveries h

theorem write {entries : List (JournalEntry α)} (h : deliveries entries = []) (sys : System α) :
    Quiet sys (sys.write entries) := by
  show deliveries (sys.journal ++ entries) = _
  rw [deliveries_append, h, List.append_nil]

theorem modifyReader (sys : System α) (r : Nat) (f : Reader α → Reader α) :
    Quiet sys (sys.modifyReader r f) := rfl

theorem foldl {β : Type} {f : System α → β → System α} (h : ∀ sys x, Quiet sys (f sys x))
    (xs : List β) (sys : System α) : Quiet sys (xs.foldl f sys) :=
  List.foldlRecOn xs f (refl sys) fun _ hbefore x _ => hbefore.trans (h _ x)

/-! ## References -/

theorem acquire (sys : System α) (i : Nat) (f : Flavour) : Quiet sys (sys.acquire i f).2 := by
  unfold System.acquire
  split <;> rfl

theorem teardown (sys : System α) (i : Nat) : Quiet sys (sys.teardown i) := by
  unfold System.teardown
  split
  · rfl
  · rename_i b _
    let uncached := sys.modifyProvider b.provider fun p => p.uncache b.key i
    refine foldl (fun sys s => ?_) _ uncached
    exact modifyReader sys s.1 _

theorem release (sys : System α) (i : Nat) (f : Flavour) : Quiet sys (sys.release i f) := by
  have hrelinquish : Quiet sys (sys.relinquish i f).2 := by
    unfold System.relinquish
    split <;> rfl
  exact hrelinquish.trans (foldl teardown _ _)

end Quiet

/-! ## Upkeep -/

variable {ends : Endings} {sys sys' : System α}

/-- What may be noted is no delivery. -/
theorem deliveries_eq_nil_of_mayNote {entries : List (JournalEntry α)}
    (h : ∀ entry ∈ entries, sys.MayNote entry) : deliveries entries = [] := by
  refine List.filterMap_eq_nil_iff.mpr fun entry hentry => ?_
  cases entry with
  | event event => rfl
  | call r call =>
    obtain ⟨-, hasks | rfl⟩ := h _ hentry
    · cases call with
      | temporality _ | aggregation _ => rfl
      | deliver _ | flush | shutdown => cases hasks
    · rfl

theorem Upkeep.quiet (h : Upkeep ends sys sys') : Quiet sys sys' := by
  cases h with
  | clock | hold | provider | reader | clear => rfl
  | note may => exact .write (deliveries_eq_nil_of_mayNote may) sys
  | acquire i f => exact .acquire sys i f
  | release i f => exact .release sys i f

/-- Upkeep delivers nothing. -/
theorem Upkeeps.quiet (h : Upkeeps .all sys sys') : Quiet sys sys' := by
  induction h with
  | refl => rfl
  | tail _ hupkeep ih => exact ih.trans hupkeep.quiet

namespace Quiet

theorem reclaim (sys : System α) : Quiet sys sys.reclaim := Upkeeps.quiet (.reclaim trivial sys)

/-! ## Requests and measurements -/

variable [Quantity α]

theorem procure (sys : System α) (p : Nat) (provider : Provider α) (scope : Scope)
    (i : Instrument α) : Quiet sys (sys.procure p provider scope i).2 := by
  -- Of a request there are only questions in the journal.
  have hasked {entries : List (JournalEntry α)} {outcome : Except (Error α) (List (StreamPlan α))}
      (hplan : sys.plan provider scope i = (entries, outcome)) : Quiet sys (sys.write entries) := by
    have hentries := asks_plan sys provider scope i
    rw [hplan] at hentries
    exact write (deliveries_eq_nil_of_asks hentries) sys
  rcases procure_cases sys p provider scope i with
    ⟨e, entries, hplan, heq⟩ | ⟨found, -, -, heq⟩ | ⟨entries, plans, -, hplan, heq⟩
  · rw [heq]
    exact hasked hplan
  · rw [heq]
    exact acquire sys found .transient
  · rw [heq]
    exact hasked hplan

theorem create (sys : System α) (p : Nat) (scope : Scope) (i : Instrument α) (callbacks : Nat) :
    Quiet sys (sys.create p scope i callbacks).2 := by
  unfold System.create
  split
  · rfl
  · rename_i provider _
    let asked := sys.modifyProvider p (·.withScope scope)
    simp only
    split
    · rfl
    · have hprocure : Quiet sys _ := procure asked p provider (provider.meterScope scope) i
      split
      · rename_i heq
        rw [heq] at hprocure
        exact hprocure
      · rename_i found after heq
        rw [heq] at hprocure
        split
        · rename_i number _
          have hsingles : Upkeeps .all (after.adopt found).2
              ((after.adopt found).2.registerSingles p number found callbacks).2 :=
            .registerSingles ..
          exact hprocure.trans hsingles.quiet
        · exact hprocure

theorem record (sys : System α) (handle : Nat) (value : α) (attributes : List Attribute)
    (draw : Nat → Nat) : Quiet sys (sys.record handle value attributes draw) := by
  unfold System.record
  split
  · rfl
  · split
    · exact write (deliveries_events [_]) sys
    · refine foldl (fun sys s => ?_) _ sys
      exact modifyReader sys s.1.1 _

end Quiet

end System

end Metering
