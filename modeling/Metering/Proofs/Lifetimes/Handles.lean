import Metering.Proofs.Lifetimes.Roster

/-!
# Handles and Callbacks

Cloning and dropping handles, and registering and detaching callbacks, keep a system coherent. Each
of them changes the roster in one place and takes or gives back exactly the references that the
roster gained or lost there.

Detaching is the nested one: it gives back the persistent references of the registration first, and
then drops the handles that the callback kept, each of which may be the last reference.
-/

namespace Metering

variable {α : Type}

/-! ## Living instruments -/

namespace System

variable {sys sys' : System α} {claims : Claims} {i : Nat}

theorem isAlive_iff :
    sys.isAlive i = true ↔ ∃ b, sys.instruments[i]? = some b ∧ b.lifetime.stale = false := by
  unfold isAlive
  cases hb : sys.instruments[i]? with
  | none => simp
  | some b => simp

/-- Whether an instrument is alive shows in its profile. -/
theorem isAlive_congr (h : sys'.instruments.map (·.profile) = sys.instruments.map (·.profile))
    (i : Nat) : sys'.isAlive i = sys.isAlive i := by
  have hany (sys : System α) :
      sys.isAlive i = ((sys.instruments[i]?).map (·.profile)).any fun x => !x.1 := by
    unfold isAlive
    cases sys.instruments[i]? <;> rfl
  rw [hany, hany, map_getElem?_of_map_eq h]

/-- An instrument on which there is a claim is alive. -/
theorem Balanced.isAlive_of_claim (h : Balanced sys claims) (hbuilt : i < sys.instruments.length)
    {f : Flavour} (hclaim : claims i f ≠ 0) : sys.isAlive i = true := by
  have hb : sys.instruments[i]? = some sys.instruments[i] := List.getElem?_eq_getElem hbuilt
  refine isAlive_iff.mpr ⟨_, hb, ?_⟩
  cases hs : sys.instruments[i].lifetime.stale with
  | false => rfl
  | true => exact absurd ((h.stale_iff i _ hb).mp hs f) hclaim

/-- The instrument behind a handle is alive. -/
theorem Coherent.isAlive_of_handle (h : Coherent sys) {handle : Nat}
    (hh : sys.handles.find? handle = some i) : sys.isAlive i = true := by
  have hmem : i ∈ sys.handles.values :=
    List.mem_map_of_mem (Table.find?_eq_some_iff_mem.mp hh)
  have hbuilt := h.formed.handles_built i hmem
  simp only [roster, List.length_map] at hbuilt
  have hclaim : sys.roster.claims i .transient ≠ 0 :=
    Nat.pos_iff_ne_zero.mp (List.count_pos_iff.mpr hmem)
  exact h.balanced.isAlive_of_claim hbuilt hclaim

theorem profile_acquire (sys : System α) (i : Nat) (f : Flavour) :
    (sys.acquire i f).2.instruments.map (·.profile) = sys.instruments.map (·.profile) := by
  unfold acquire
  split
  · rfl
  · rename_i b hb
    apply map_modify_of_eq
    intro x hx
    obtain rfl := Option.some.inj (hx.symm.trans hb)
    simp only [BuiltInstrument.profile, Lifetime.acquire]
    split <;> simp

theorem providers_acquire (i : Nat) (f : Flavour) :
    (sys.acquire i f).2.providers = sys.providers := by
  unfold acquire
  split <;> rfl

/-! ## Handles -/

theorem claims_adopt (hformed : sys.roster.Formed) (i : Nat) :
    (sys.adopt i).2.roster.claims = sys.roster.claims.bump i .transient := by
  have hnew : ∀ e ∈ sys.handles.entries, (e.1 == sys.nextHandle) = false :=
    hformed.forall_ne_nextHandle
  funext j g
  cases g with
  | transient =>
    show (sys.handles.insert sys.nextHandle i).values.count j = _
    rw [Table.values_insert_of_new hnew, List.count_append, Claims.bump]
    -- The new handle counts for its own instrument only.
    by_cases hj : j = i
    · subst hj
      simp [Roster.claims, roster]
    · have hnone : List.count j [i] = 0 := List.count_eq_zero_of_not_mem (by simpa using hj)
      simp [Roster.claims, roster, hnone, hj]
  | persistent => simp [Roster.claims, Roster.references, roster, adopt, Claims.bump]

/-- A handle made of a reference that was taken is entered in the roster. -/
theorem Balanced.adopt (h : Balanced sys (sys.roster.claims.bump i .transient))
    (hformed : sys.roster.Formed) (hbuilt : i < sys.instruments.length) :
    Coherent (sys.adopt i).2 := by
  have hnew : ∀ e ∈ sys.handles.entries, (e.1 == sys.nextHandle) = false :=
    hformed.forall_ne_nextHandle
  refine ⟨?_, ?_⟩
  · rw [claims_adopt hformed]
    exact h.congr rfl rfl rfl
  · -- Of the roster, only the list of handles is another.
    refine ⟨?_, ?_, hformed.callbacks_lt, hformed.feeds, hformed.observers, hformed.held⟩
    · intro k hk
      have hk : k ∈ (sys.handles.insert sys.nextHandle i).keys := hk
      rw [Table.keys_insert_of_new hnew] at hk
      show k < sys.nextHandle + 1
      rcases List.mem_append.mp hk with hk | hk
      · exact Nat.lt_succ_of_lt (hformed.handles_lt k hk)
      · exact List.mem_singleton.mp hk ▸ Nat.lt_succ_self _
    · intro j hj
      have hj : j ∈ (sys.handles.insert sys.nextHandle i).values := hj
      rw [Table.values_insert_of_new hnew] at hj
      rcases List.mem_append.mp hj with hj | hj
      · exact hformed.handles_built j hj
      · show j < (sys.instruments.map _).length
        rw [List.length_map]
        exact List.mem_singleton.mp hj ▸ hbuilt

/-- A clone is one more handle on a living instrument. -/
theorem Coherent.cloneHandle (h : Coherent sys) (handle : Nat) :
    Coherent (sys.cloneHandle handle).2 := by
  unfold System.cloneHandle
  cases hh : sys.handles.find? handle with
  | none => exact h
  | some i =>
    obtain ⟨b, hb, halive⟩ := isAlive_iff.mp (h.isAlive_of_handle hh)
    obtain ⟨-, hbalanced⟩ := h.balanced.acquire hb halive .transient
    have hroster := roster_acquire sys i .transient
    have hlength : (sys.acquire i .transient).2.instruments.length = sys.instruments.length := by
      simpa using congrArg List.length (profile_acquire sys i .transient)
    -- Taking the reference left the roster alone, so the claims bumped are still the roster's.
    apply Balanced.adopt (hroster ▸ hbalanced) (hroster ▸ h.formed)
    rw [hlength]
    exact (List.getElem?_eq_some_iff.mp hb).1

theorem Coherent.cloneHandles (h : Coherent sys) (handles : List Nat) :
    Coherent (sys.cloneHandles handles).2 := by
  induction handles generalizing sys with
  | nil => exact h
  | cons handle rest ih => exact ih (h.cloneHandle handle)

theorem claims_eraseHandle {handle : Nat} (hh : sys.handles.find? handle = some i) :
    sys.roster.claims =
      ({ sys with handles := sys.handles.erase handle } : System α).roster.claims.bump i
        .transient := by
  funext j g
  cases g with
  | transient =>
    have hcount := (Table.values_perm_erase hh).count_eq j
    simp only [Roster.claims, roster, Claims.bump] at hcount ⊢
    -- The values lost one occurrence of the instrument.
    rw [hcount, List.count_cons]
    by_cases hj : j = i
    · simp [hj]
    · simp [hj, Ne.symm hj]
  | persistent => simp [Roster.claims, Roster.references, roster, Claims.bump]

/-- Dropping a handle gives its reference back, and tears the instrument down if it was the
last. -/
theorem Coherent.dropHandle (h : Coherent sys) (handle : Nat) : Coherent (sys.dropHandle handle) := by
  unfold System.dropHandle
  cases hh : sys.handles.find? handle with
  | none => exact h
  | some i =>
    -- The handle goes first, which leaves its reference as one more than the roster claims.
    let erased : System α := { sys with handles := sys.handles.erase handle }
    have hbalanced : Balanced erased (erased.roster.claims.bump i .transient) := by
      rw [← claims_eraseHandle hh]
      exact h.balanced.congr rfl rfl rfl
    have hroster : (erased.release i .transient).roster = erased.roster := roster_release i .transient
    have hformed : erased.roster.Formed := by
      refine ⟨?_, ?_, h.formed.callbacks_lt, h.formed.feeds, h.formed.observers, h.formed.held⟩
      · intro k hk
        have hk : k ∈ (sys.handles.erase handle).keys := hk
        rw [Table.keys_erase] at hk
        exact h.formed.handles_lt k (List.mem_filter.mp hk).1
      · intro j hj
        obtain ⟨e, he, rfl⟩ := List.mem_map.mp hj
        exact h.formed.handles_built _ (List.mem_map_of_mem (Table.mem_erase.mp he).1)
    show Coherent (erased.release i .transient)
    exact ⟨hroster ▸ hbalanced.release, hroster ▸ hformed⟩

theorem Coherent.dropHandles (h : Coherent sys) (handles : List Nat) :
    Coherent (handles.foldl System.dropHandle sys) := by
  induction handles generalizing sys with
  | nil => exact h
  | cons handle rest ih => exact ih (h.dropHandle handle)

end System

/-! ## Several references at once -/

/-- The claims with one more for each instrument in a list. -/
def Claims.add (claims : Claims) (is : List Nat) (f : Flavour) : Claims :=
  fun j g => claims j g + if g = f then is.count j else 0

theorem Claims.add_nil (claims : Claims) (f : Flavour) : claims.add [] f = claims := by
  funext j g
  simp [add]

theorem Claims.add_cons (claims : Claims) (i : Nat) (is : List Nat) (f : Flavour) :
    claims.add (i :: is) f = (claims.bump i f).add is f := by
  funext j g
  simp only [add, bump, List.count_cons]
  grind

theorem Claims.add_cons' (claims : Claims) (i : Nat) (is : List Nat) (f : Flavour) :
    claims.add (i :: is) f = (claims.add is f).bump i f := by
  funext j g
  simp only [add, bump, List.count_cons]
  grind

namespace System

variable {sys sys' : System α} {claims : Claims} {i : Nat}

theorem acquireAll_cons (i : Nat) (rest : List Nat) :
    sys.acquireAll (i :: rest) =
      (if (sys.acquire i .persistent).1 then i :: ((sys.acquire i .persistent).2.acquireAll rest).1
        else ((sys.acquire i .persistent).2.acquireAll rest).1,
        ((sys.acquire i .persistent).2.acquireAll rest).2) := rfl

/-- References on living instruments are all taken. -/
theorem Balanced.acquireAll (h : Balanced sys claims) {is : List Nat}
    (halive : ∀ i ∈ is, sys.isAlive i = true) :
    (sys.acquireAll is).1 = is ∧ Balanced (sys.acquireAll is).2 (claims.add is .persistent) := by
  induction is generalizing sys claims with
  | nil =>
    rw [Claims.add_nil]
    exact ⟨rfl, h⟩
  | cons i rest ih =>
    obtain ⟨b, hb, hstale⟩ := isAlive_iff.mp (halive i (List.mem_cons_self ..))
    obtain ⟨htaken, hbalanced⟩ := h.acquire hb hstale .persistent
    -- Taking a reference ends no life.
    have hrest : ∀ j ∈ rest, (sys.acquire i .persistent).2.isAlive j = true := by
      intro j hj
      rw [isAlive_congr (profile_acquire sys i .persistent)]
      exact halive j (List.mem_cons_of_mem _ hj)
    obtain ⟨hlist, hall⟩ := ih hbalanced hrest
    rw [Claims.add_cons, acquireAll_cons, htaken, if_pos rfl, hlist]
    exact ⟨rfl, hall⟩

theorem providers_acquireAll (is : List Nat) : (sys.acquireAll is).2.providers = sys.providers := by
  induction is generalizing sys with
  | nil => rfl
  | cons i rest ih => exact ih.trans (providers_acquire i .persistent)

theorem roster_acquireAll (sys : System α) (is : List Nat) :
    (sys.acquireAll is).2.roster = sys.roster := by
  induction is generalizing sys with
  | nil => rfl
  | cons i rest ih => exact (ih _).trans (roster_acquire sys i .persistent)

/-- Giving references back one after the other removes their claims. -/
theorem Balanced.releaseAll {f : Flavour} {is : List Nat} (h : Balanced sys (claims.add is f)) :
    Balanced (is.foldl (fun sys i => sys.release i f) sys) claims := by
  induction is generalizing sys with
  | nil =>
    rw [Claims.add_nil] at h
    exact h
  | cons i rest ih =>
    rw [Claims.add_cons'] at h
    exact ih h.release

theorem roster_releaseAll (sys : System α) (f : Flavour) (is : List Nat) :
    (is.foldl (fun sys i => sys.release i f) sys).roster = sys.roster := by
  induction is generalizing sys with
  | nil => rfl
  | cons i rest ih => exact (ih _).trans (roster_release i f)

end System

end Metering
