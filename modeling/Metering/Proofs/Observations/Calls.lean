import Metering.Proofs.Observations.Filing

/-!
# The Calls of a Pass

A pass calls every callback that feeds an asynchronous instrument of which the reader has a stream,
grouped by provider and each of them once, and has one answer for each call.
-/

namespace Metering

variable {α : Type}

/-! ## What a reader waits for -/

theorem find?_wanted (reader : Reader α) (p : Nat) :
    (reader.wanted.find? p).getD [] =
      ((reader.streams.values.filterMap (·.observer?)).filter (·.provider == p)).map (·.number) := by
  rw [Reader.wanted]
  induction reader.streams.values.filterMap (·.observer?) using List.reverseRecOn with
  | nil => rfl
  | append_singleton observers o ih =>
    rw [List.foldl_append, List.filter_append, List.map_append, ← ih]
    simp only [List.foldl_cons, List.foldl_nil, Table.find?_update]
    by_cases ho : o.provider = p
    · subst ho
      simp
    · simp [ho]

/-! ## Calls and answers -/

namespace System

/-- How the calls of a pass of a reader are answered, provider by provider. -/
def answers {σ : Type} (respond : Responder σ α) (known : σ) (sys : System α)
    (reader : Reader α) : List (List (Answer α)) :=
  (callProviders respond known (sys.calls reader)).1

variable {σ : Type} (respond : Responder σ α) (known : σ) (sys : System α) (reader : Reader α)

theorem map_fst_callAll (calls : List Call) :
    (callAll respond known calls).1.map (·.1) = calls := by
  induction calls generalizing known with
  | nil => rfl
  | cons c rest ih => exact congrArg (c :: ·) (ih _)

theorem map_fst_callProviders (calls : List (List Call)) :
    (callProviders respond known calls).1.map (·.map (·.1)) = calls := by
  induction calls generalizing known with
  | nil => rfl
  | cons group rest ih =>
    exact congrArg₂ (· :: ·) (map_fst_callAll respond known group) (ih _)

/-- Every call that is answered is a call of the pass. -/
theorem call_mem {group : List (Answer α)} (hgroup : group ∈ sys.answers respond known reader)
    {answer : Answer α} (hanswer : answer ∈ group) : answer.1 ∈ (sys.calls reader).flatten := by
  rw [← map_fst_callProviders respond known (sys.calls reader)]
  exact List.mem_flatten.mpr
    ⟨_, List.mem_map_of_mem (f := List.map (·.1)) hgroup, List.mem_map_of_mem hanswer⟩

variable {sys reader}

/-- A call of the pass is that of a callback in the provider's list. -/
theorem exists_of_mem_calls {c : Call} (h : c ∈ (sys.calls reader).flatten) :
    ∃ p registration, sys.providers[c.callback.provider]? = some p ∧
      p.callbacks.find? c.callback.number = some registration ∧ c.feed = registration.feed := by
  obtain ⟨group, hgroup, hc⟩ := List.mem_flatten.mp h
  obtain ⟨e, -, rfl⟩ := List.mem_map.mp hgroup
  split at hc
  · cases hc
  · rename_i p hp
    obtain ⟨x, hx, rfl⟩ := List.mem_map.mp hc
    exact ⟨p, x.2, hp, Table.find?_eq_some_of_mem (List.mem_of_mem_filter hx) BEq.rfl, rfl⟩

/-- No callback is called for two registrations. -/
theorem eq_of_mem_calls {c d : Call} (hc : c ∈ (sys.calls reader).flatten)
    (hd : d ∈ (sys.calls reader).flatten) (h : c.callback = d.callback) : c = d := by
  obtain ⟨p, registration, hp, hfound, hfeed⟩ := exists_of_mem_calls hc
  obtain ⟨q, registration', hq, hfound', hfeed'⟩ := exists_of_mem_calls hd
  -- The callback leads to one registration, which has one feed.
  rw [h, hq] at hp
  obtain rfl := Option.some.inj hp
  rw [h, hfound'] at hfound
  obtain rfl := Option.some.inj hfound
  cases c
  cases d
  simp_all

/-- Calls are grouped by provider. -/
theorem pairwise_calls (sys : System α) (reader : Reader α) :
    (sys.calls reader).Pairwise fun g h =>
      ∀ c ∈ g, ∀ d ∈ h, c.callback.provider ≠ d.callback.provider := by
  refine List.pairwise_map.mpr (reader.wanted.distinct.imp ?_)
  intro e f hne c hc d hd
  -- Calls in a group are those of the provider that the group is for.
  split at hc
  · cases hc
  · split at hd
    · cases hd
    · obtain ⟨x, -, rfl⟩ := List.mem_map.mp hc
      obtain ⟨y, -, rfl⟩ := List.mem_map.mp hd
      simpa using hne

/-- Answers are grouped by provider. -/
theorem pairwise_answers : (sys.answers respond known reader).Pairwise fun g h =>
    ∀ a ∈ g, ∀ b ∈ h, a.1.callback.provider ≠ b.1.callback.provider := by
  have hcalls := pairwise_calls sys reader
  rw [← map_fst_callProviders respond known (sys.calls reader), List.pairwise_map] at hcalls
  apply hcalls.imp
  intro g h hne a ha b hb
  exact hne a.1 (List.mem_map_of_mem ha) b.1 (List.mem_map_of_mem hb)

/-- Every callback of a stream's provider that is registered for its instrument is called. -/
theorem mem_calls {s : RegisteredStream α} (hs : s ∈ reader.streams.values) {o : ObserverRef}
    (ho : s.observer? = some o) {p : Provider α} (hp : sys.providers[o.provider]? = some p)
    {e : Nat × Registration} (he : e ∈ p.callbacks.entries) (hn : o.number ∈ e.2.feed.numbers) :
    (⟨⟨o.provider, e.1⟩, e.2.feed⟩ : Call) ∈ (sys.calls reader).flatten := by
  have hwanted : o.number ∈ (reader.wanted.find? o.provider).getD [] := by
    rw [find?_wanted]
    refine List.mem_map_of_mem (List.mem_filter.mpr ⟨?_, by simp⟩)
    exact List.mem_filterMap.mpr ⟨s, hs, ho⟩
  -- The reader waits for the number, so the pass has a group for its provider.
  cases hfound : reader.wanted.find? o.provider with
  | none =>
    rw [hfound] at hwanted
    cases hwanted
  | some ns =>
    rw [hfound] at hwanted
    have hgroup := Table.find?_eq_some_iff_mem.mp hfound
    refine List.mem_flatten.mpr ⟨_, List.mem_map_of_mem hgroup, ?_⟩
    simp only [hp]
    refine List.mem_map.mpr ⟨e, List.mem_filter.mpr ⟨he, ?_⟩, rfl⟩
    exact List.any_eq_true.mpr ⟨o.number, hn, by simpa using hwanted⟩

/-- A call that is answered is in a group of answers. -/
theorem exists_answer {c : Call} (h : c ∈ (sys.calls reader).flatten) :
    ∃ group ∈ sys.answers respond known reader, ∃ answer ∈ group, answer.1 = c := by
  rw [← map_fst_callProviders respond known (sys.calls reader)] at h
  obtain ⟨calls, hcalls, hc⟩ := List.mem_flatten.mp h
  obtain ⟨group, hgroup, rfl⟩ := List.mem_map.mp hcalls
  obtain ⟨answer, hanswer, rfl⟩ := List.mem_map.mp hc
  exact ⟨group, hgroup, answer, hanswer, rfl⟩

end System

end Metering
