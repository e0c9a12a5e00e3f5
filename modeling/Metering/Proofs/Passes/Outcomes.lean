import Metering.Proofs.Moves.Roots
import Metering.Proofs.Observations.Isolation

/-!
# Passes under Given Outcomes

A pass in which every callback has an outcome that is given beforehand, and a note is taken of each
call. What is noted are the attached callbacks that feed what the reader waits for, each once; what
is merged is what the successful ones of them filed; and what counts as failure is a call that did
not return.
-/

namespace Metering

variable {α : Type}

/-- Gives every callback its outcome, and notes the callbacks in the order in which they are
called. -/
def noting (outcome : CallbackRef → Performance α) : Responder (List CallbackRef) α :=
  fun called c => (outcome c, called ++ [c])

namespace System

variable {sys : System α} {reader : Reader α} {outcome : CallbackRef → Performance α}

/-! ## Answers and notes -/

theorem callAll_noting (called : List CallbackRef) (calls : List Call) :
    callAll (noting outcome) called calls =
      (calls.map fun c => (c, outcome c.callback), called ++ calls.map (·.callback)) := by
  induction calls generalizing called with
  | nil => simp [callAll]
  | cons c rest ih => simp [callAll, noting, ih]

/-- Every call has its outcome for an answer, and is noted once. -/
theorem callProviders_noting (called : List CallbackRef) (calls : List (List Call)) :
    callProviders (noting outcome) called calls =
      (calls.map (·.map fun c => (c, outcome c.callback)),
        called ++ calls.flatten.map (·.callback)) := by
  induction calls generalizing called with
  | nil => simp [callProviders]
  | cons group rest ih => simp [callProviders, callAll_noting, ih]

theorem answers_noting (outcome : CallbackRef → Performance α) (called : List CallbackRef)
    (sys : System α) (reader : Reader α) :
    (sys.answers (noting outcome) called reader).flatten =
      (sys.calls reader).flatten.map fun c => (c, outcome c.callback) := by
  rw [answers, callProviders_noting, ← List.map_flatten]

/-! ## Who is called -/

/-- What an attached callback is registered for. -/
def registration? (sys : System α) (c : CallbackRef) : Option Registration :=
  sys.providers[c.provider]?.bind (·.callbacks.find? c.number)

/-- A call is that of an attached callback, and of what it is registered for. -/
theorem registration?_of_mem_calls {c : Call} (h : c ∈ (sys.calls reader).flatten) :
    ∃ registration, sys.registration? c.callback = some registration ∧
      c.feed = registration.feed := by
  obtain ⟨provider, registration, hprovider, hfound, hfeed⟩ := exists_of_mem_calls h
  exact ⟨registration, by rw [registration?, hprovider, Option.bind_some, hfound], hfeed⟩

/-- A callback is called only if it feeds an instrument that a stream of the reader waits for. -/
theorem exists_stream_of_mem_calls {c : Call} (h : c ∈ (sys.calls reader).flatten) :
    ∃ n ∈ c.feed.numbers, ∃ rs ∈ reader.streams.values,
      rs.observer? = some ⟨c.callback.provider, n⟩ := by
  obtain ⟨group, hgroup, hc⟩ := List.mem_flatten.mp h
  obtain ⟨e, he, rfl⟩ := List.mem_map.mp hgroup
  split at hc
  · cases hc
  · obtain ⟨x, hx, rfl⟩ := List.mem_map.mp hc
    obtain ⟨n, hn, hwanted⟩ := List.any_eq_true.mp (List.mem_filter.mp hx).2
    have hfound : reader.wanted.find? e.1 = some e.2 := Table.find?_eq_some_iff_mem.mpr he
    have hlisted := find?_wanted reader e.1
    rw [hfound, Option.getD_some] at hlisted
    rw [hlisted, List.contains_iff_mem] at hwanted
    -- The provider waits for the number because of a stream.
    obtain ⟨o, ho, rfl⟩ := List.mem_map.mp hwanted
    obtain ⟨ho, hprovider⟩ := List.mem_filter.mp ho
    obtain ⟨rs, hrs, hobserver⟩ := List.mem_filterMap.mp ho
    refine ⟨o.number, hn, rs, hrs, hobserver.trans (congrArg some ?_)⟩
    cases o
    simpa using hprovider

/-- The callbacks called in a pass are the attached ones that feed an instrument that a stream of the
reader waits for. -/
theorem mem_map_callback_calls_iff {c : CallbackRef} :
    c ∈ (sys.calls reader).flatten.map (·.callback) ↔
      ∃ registration, sys.registration? c = some registration ∧
        ∃ n ∈ registration.feed.numbers, ∃ rs ∈ reader.streams.values,
          rs.observer? = some ⟨c.provider, n⟩ := by
  constructor
  · intro h
    obtain ⟨call, hcall, rfl⟩ := List.mem_map.mp h
    obtain ⟨registration, hregistration, hfeed⟩ := registration?_of_mem_calls hcall
    exact ⟨registration, hregistration, hfeed ▸ exists_stream_of_mem_calls hcall⟩
  · rintro ⟨registration, hregistration, n, hn, rs, hrs, hobserver⟩
    obtain ⟨provider, hprovider, hfound⟩ := Option.bind_eq_some_iff.mp hregistration
    have hmem := mem_calls hrs hobserver hprovider (Table.find?_eq_some_iff_mem.mp hfound) hn
    exact List.mem_map.mpr ⟨_, hmem, rfl⟩

/-- No callback is called twice, however much it feeds. -/
theorem nodup_map_callback_calls (sys : System α) (reader : Reader α) :
    ((sys.calls reader).flatten.map (·.callback)).Nodup := by
  rw [List.map_flatten, List.nodup_flatten]
  constructor
  · -- The callbacks of one provider have different numbers.
    intro l hl
    obtain ⟨group, hgroup, rfl⟩ := List.mem_map.mp hl
    obtain ⟨e, -, rfl⟩ := List.mem_map.mp hgroup
    split
    · exact List.nodup_nil
    · rename_i provider _
      rw [List.map_map]
      have hkeys : provider.callbacks.entries.Pairwise fun a b => a.1 ≠ b.1 :=
        provider.callbacks.distinct.imp fun h => by simpa using h
      refine List.pairwise_map.mpr ((hkeys.filter _).imp ?_)
      intro a b hne heq
      exact hne (congrArg CallbackRef.number heq)
  · -- Those of different providers differ in the provider.
    refine List.pairwise_map.mpr ((pairwise_calls sys reader).imp ?_)
    intro g h hne x hx hy
    obtain ⟨c, hc, rfl⟩ := List.mem_map.mp hx
    obtain ⟨d, hd, heq⟩ := List.mem_map.mp hy
    exact hne c hc d hd (congrArg CallbackRef.provider heq.symm)

/-! ## What is merged -/

/-- What an outcome contributes to the numbered instrument: all of what a successful callback that
is registered for it observed there, and nothing of what a failed one did. -/
def contribution (sys : System α) (outcome : CallbackRef → Performance α) (n : Nat)
    (c : CallbackRef) : List (Observation α) :=
  match sys.registration? c, (outcome c).ending with
  | some registration, .returned =>
    if n ∈ registration.feed.numbers then
      (outcome c).observations.filter (registration.feed.fileUnder · == n)
    else []
  | _, _ => []

theorem contribution_eq_filed {c : Call} (h : c ∈ (sys.calls reader).flatten) (n : Nat) :
    sys.contribution outcome n c.callback = Answer.filed n (c, outcome c.callback) := by
  obtain ⟨registration, hregistration, hfeed⟩ := registration?_of_mem_calls h
  rw [contribution, hregistration, Answer.filed, Answer.registered, hfeed]
  cases (outcome c.callback).ending <;> simp

/-- When all calls are of one provider, a stream sees what the calls contribute to its instrument. -/
theorem seenObservations_noting {p : Nat}
    (hone : ∀ c ∈ (sys.calls reader).flatten, c.callback.provider = p) (called : List CallbackRef)
    (o : ObserverRef) :
    seenObservations (sys.answers (noting outcome) called reader) o =
      merged (((sys.calls reader).flatten.map (·.callback)).flatMap
        (sys.contribution outcome o.number)) := by
  have hgroups : (sys.answers (noting outcome) called reader).Pairwise fun g h =>
      g.any (·.registered o.number) = true → h.any (·.registered o.number) = true → False := by
    refine (pairwise_answers (noting outcome) called).imp_of_mem ?_
    intro g h hg hh hne hany hany'
    obtain ⟨a, ha, -⟩ := List.any_eq_true.mp hany
    obtain ⟨b, hb, -⟩ := List.any_eq_true.mp hany'
    have hpa := hone _ (call_mem (noting outcome) called sys reader hg ha)
    have hpb := hone _ (call_mem (noting outcome) called sys reader hh hb)
    exact hne a ha b hb (hpa.trans hpb.symm)
  refine (Answer.flatMap_find?_reverse hgroups).trans (congrArg merged ?_)
  rw [answers_noting, List.flatMap_map, List.flatMap_map]
  exact List.flatMap_congr fun c hc => (contribution_eq_filed hc o.number).symm

/-! ## What fails -/

theorem failures_observationPass (answers : List (Answer α)) :
    (observationPass answers).failures = answers.countP fun a => decide (a.2.ending ≠ .returned) := by
  induction answers using List.reverseRecOn with
  | nil => rfl
  | append_singleton answers answer ih =>
    rw [observationPass_concat, List.countP_append, ← ih]
    cases hending : answer.2.ending <;>
      simp [Performance.result, hending, ObservationPass.absorb]

/-- All calls that did not return are counted, of whichever provider they are. -/
theorem foldl_failures (groups : List (List (Answer α))) :
    (groups.map observationPass).foldl (fun (n : Nat) pass => n + pass.failures) 0 =
      groups.flatten.countP fun a => decide (a.2.ending ≠ .returned) := by
  induction groups using List.reverseRecOn with
  | nil => rfl
  | append_singleton groups group ih =>
    rw [List.map_append, List.foldl_append, List.map_singleton, List.foldl_cons, List.foldl_nil, ih,
      failures_observationPass, List.flatten_concat, List.countP_append]

/-- No failure is counted when every call returned. -/
theorem foldl_failures_eq_zero_iff (groups : List (List (Answer α))) :
    (groups.map observationPass).foldl (fun (n : Nat) pass => n + pass.failures) 0 = 0 ↔
      ∀ a ∈ groups.flatten, a.2.ending = .returned := by
  rw [foldl_failures, List.countP_eq_zero]
  simp only [decide_eq_true_eq, not_not]

end System

end Metering
