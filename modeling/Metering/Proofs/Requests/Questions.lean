import Metering.Proofs.Lifetimes.Creation

/-!
# What Planning Writes

Planning the streams of an instrument puts questions to the exporters of the provider's open
readers, and does nothing else, whether a plan comes of it or not.
-/

namespace Metering

variable {α : Type}

/-- Whether a call to an exporter is a question that is put while streams are planned. -/
def ExporterCall.asks : ExporterCall α → Bool
  | .temporality _ | .aggregation _ => true
  | .deliver _ | .flush | .shutdown => false

/-- Whether an entry of the journal is a question to the exporter of one of some readers. -/
def JournalEntry.AsksOneOf (readers : List Nat) (entry : JournalEntry α) : Prop :=
  ∃ r ∈ readers, ∃ call : ExporterCall α, entry = .call r call ∧ call.asks = true

namespace System

variable [Quantity α] {sys : System α}

theorem asks_planStream {e : Exporter α} {r : Nat} {scope : Scope} {i : Instrument α}
    {pr : Projection α} : ∀ call ∈ (planStream e r scope i pr).1, call.asks = true := by
  intro call hcall
  unfold planStream at hcall
  split at hcall
  · obtain rfl := List.mem_singleton.mp hcall
    rfl
  · rcases List.mem_cons.mp hcall with rfl | hcall
    · rfl
    · -- The exporter is asked for an aggregation where the projection has none.
      unfold chooseAggregation at hcall
      split at hcall
      · cases hcall
      · obtain rfl := List.mem_singleton.mp hcall
        rfl

theorem asks_planStreams {scope : Scope} {i : Instrument α} {pairs : List (Projection α × Nat)} :
    ∀ entry ∈ (sys.planStreams scope i pairs).1, entry.AsksOneOf (pairs.map (·.2)) := by
  induction pairs with
  | nil => simp [planStreams]
  | cons pair rest ih =>
    obtain ⟨pr, r⟩ := pair
    intro entry hentry
    have hlater (h : entry ∈ (sys.planStreams scope i rest).1) :
        entry.AsksOneOf (((pr, r) :: rest).map (·.2)) := by
      obtain ⟨q, hq, hasks⟩ := ih entry h
      exact ⟨q, List.mem_cons_of_mem _ hq, hasks⟩
    have hnow {reader : Reader α}
        (h : entry ∈ (planStream reader.exporter r scope i pr).1.map (.call r)) :
        entry.AsksOneOf (((pr, r) :: rest).map (·.2)) := by
      obtain ⟨call, hcall, rfl⟩ := List.mem_map.mp h
      exact ⟨r, List.mem_cons_self .., call, rfl, asks_planStream call hcall⟩
    unfold planStreams at hentry
    split at hentry
    · exact hlater hentry
    · split at hentry
      · exact hlater hentry
      · simp only at hentry
        split at hentry
        · exact hnow hentry
        · rcases List.mem_append.mp hentry with hentry | hentry
          · exact hnow hentry
          · exact hlater hentry

/-- Planning asks the exporters of the provider's readers. -/
theorem asks_plan (sys : System α) (p : Provider α) (scope : Scope) (i : Instrument α) :
    ∀ entry ∈ (sys.plan p scope i).1, entry.AsksOneOf p.readers := by
  intro entry hentry
  obtain ⟨r, hr, hasks⟩ := asks_planStreams entry hentry
  obtain ⟨⟨pr, r⟩, hpair, rfl⟩ := List.mem_map.mp hr
  obtain ⟨pr', -, hpair⟩ := List.mem_flatMap.mp hpair
  obtain ⟨r', hr', heq⟩ := List.mem_map.mp hpair
  obtain ⟨rfl, rfl⟩ := Prod.mk.inj heq
  exact ⟨r', hr', hasks⟩

end System

end Metering
