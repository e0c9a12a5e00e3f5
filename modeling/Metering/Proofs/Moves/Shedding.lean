import Metering.Proofs.Accounts.Descent
import Metering.Proofs.Steps.Upkeep

/-!
# Shedding

As far as streams are concerned, nothing comes of upkeep but that some of them go. A system sheds
another if its readers have no streams that the other's do not have, and what is fixed about
instruments and providers is the same.
-/

namespace Metering

variable {α : Type}

/-! ## Optional values that are related -/

section Related

variable {β : Type} {P Q R : β → β → Prop} {a b c : Option β}

theorem rel_mono (h : ∀ x y, P x y → Q x y) (hab : Option.Rel P a b) : Option.Rel Q a b := by
  cases hab with
  | some hxy => exact .some (h _ _ hxy)
  | none => exact .none

theorem exists_of_rel_some {y : β} (h : Option.Rel P a (some y)) : ∃ x, a = some x ∧ P x y := by
  cases h with
  | some hxy => exact ⟨_, rfl, hxy⟩

theorem exists_of_some_rel {x : β} (h : Option.Rel P (some x) b) : ∃ y, b = some y ∧ P x y := by
  cases h with
  | some hxy => exact ⟨_, rfl, hxy⟩

/-- A change at one place of a list relates what is found before and after. -/
theorem rel_modify {l : List β} {i : Nat} {f : β → β} (hrefl : ∀ x, P x x) (h : ∀ x, P x (f x))
    (j : Nat) : Option.Rel P l[j]? (l.modify i f)[j]? := by
  rw [List.getElem?_modify]
  cases l[j]? with
  | none => exact .none
  | some x =>
    refine .some ?_
    split
    · exact h x
    · exact hrefl x

theorem rel_refl (h : ∀ x, P x x) (a : Option β) : Option.Rel P a a := by
  cases a with
  | none => exact .none
  | some x => exact .some (h x)

theorem rel_trans (h : ∀ x y z, P x y → Q y z → R x z) (hab : Option.Rel P a b)
    (hbc : Option.Rel Q b c) : Option.Rel R a c := by
  cases hab with
  | none =>
    cases hbc
    exact .none
  | some hxy =>
    obtain ⟨z, rfl, hyz⟩ := exists_of_some_rel hbc
    exact .some (h _ _ _ hxy hyz)

end Related

/-- Whether two lists are related at every place, by a relation that may depend on the place. -/
def Pointwise {β : Type} (P : Nat → β → β → Prop) (l m : List β) : Prop :=
  ∀ i : Nat, Option.Rel (P i) l[i]? m[i]?

namespace Pointwise

variable {β : Type} {P : Nat → β → β → Prop} {l m n : List β}

theorem of_eq (h : ∀ i x, P i x x) (heq : m = l) : Pointwise P l m := fun i => heq ▸ rel_refl (h i) _

theorem trans (h : ∀ i x y z, P i x y → P i y z → P i x z) (hlm : Pointwise P l m)
    (hmn : Pointwise P m n) : Pointwise P l n := fun i => rel_trans (h i) (hlm i) (hmn i)

/-- A change at one place relates a list to itself. -/
theorem modify (hrefl : ∀ i x, P i x x) (l : List β) (i : Nat) {f : β → β}
    (h : ∀ x, P i x (f x)) : Pointwise P l (l.modify i f) := by
  intro j
  by_cases hij : i = j
  · subst hij
    exact rel_modify (hrefl i) h i
  · rw [List.getElem?_modify_ne f l hij]
    exact rel_refl (hrefl j) _

end Pointwise

/-! ## Shedding -/

/-- A reader from which streams may have gone, and on which nothing else counts as changed. -/
structure Reader.Sheds (before after : Reader α) : Prop where
  streams : after.streams.entries.Sublist before.streams.entries
  nextStream : after.nextStream = before.nextStream

theorem Reader.Sheds.refl (reader : Reader α) : Sheds reader reader := ⟨.refl _, rfl⟩

theorem Reader.sheds_unregister (reader : Reader α) (n : Nat) :
    Sheds reader (reader.unregister n) := ⟨List.filter_sublist, rfl⟩

theorem Reader.sheds_closed (reader : Reader α) : Sheds reader { reader with closed := true } :=
  ⟨.refl _, rfl⟩

theorem Reader.sheds_emptied (reader : Reader α) :
    Sheds reader { reader with streams := Table.empty } := ⟨List.nil_sublist _, rfl⟩

theorem Reader.Sheds.trans {reader reader' reader'' : Reader α} (h : Sheds reader reader')
    (k : Sheds reader' reader'') : Sheds reader reader'' :=
  ⟨k.streams.trans h.streams, k.nextStream.trans h.nextStream⟩

namespace System

variable {ends : Endings} {sys sys' sys'' : System α}

/-- Streams may have gone; instruments stay what they are, providers have the views that they had, and
numbers are given out from where they were. -/
structure Sheds (sys sys' : System α) : Prop where
  readers : ∀ r : Nat, Option.Rel Reader.Sheds sys.readers[r]? sys'.readers[r]?
  instruments : sys'.instruments.map (·.ident) = sys.instruments.map (·.ident)
  views : sys'.providers.map (·.views) = sys.providers.map (·.views)
  numbers : sys'.providers.map (·.nextObserver) = sys.providers.map (·.nextObserver)

namespace Sheds

/-- Nothing that counts has changed. -/
theorem of_eq (readers : sys'.readers = sys.readers)
    (instruments : sys'.instruments.map (·.ident) = sys.instruments.map (·.ident))
    (providers : sys'.providers = sys.providers) : Sheds sys sys' :=
  ⟨fun _ => readers ▸ rel_refl Reader.Sheds.refl _, instruments, providers ▸ rfl, providers ▸ rfl⟩

theorem refl (sys : System α) : Sheds sys sys := of_eq rfl rfl rfl

theorem trans (h : Sheds sys sys') (k : Sheds sys' sys'') : Sheds sys sys'' :=
  ⟨fun r => rel_trans (Q := Reader.Sheds) (fun _ _ _ => Reader.Sheds.trans) (h.readers r) (k.readers r),
    k.instruments.trans h.instruments, k.views.trans h.views, k.numbers.trans h.numbers⟩

theorem modifyProvider (sys : System α) (p : Nat) {f : Provider α → Provider α}
    (views : ∀ provider, (f provider).views = provider.views)
    (numbers : ∀ provider, (f provider).nextObserver = provider.nextObserver) :
    Sheds sys (sys.modifyProvider p f) :=
  ⟨(refl sys).readers, rfl, map_modify_of_eq fun provider _ => views provider,
    map_modify_of_eq fun provider _ => numbers provider⟩

theorem modifyReader (sys : System α) (r : Nat) {f : Reader α → Reader α}
    (h : ∀ reader, Reader.Sheds reader (f reader)) : Sheds sys (sys.modifyReader r f) :=
  ⟨rel_modify Reader.Sheds.refl h, rfl, rfl, rfl⟩

theorem setLifetime (sys : System α) (i : Nat) (l : Lifetime Nat) : Sheds sys (sys.setLifetime i l) :=
  of_eq rfl (map_modify_of_eq fun _ _ => rfl) rfl

theorem foldl {β : Type} {f : System α → β → System α} (h : ∀ sys x, Sheds sys (f sys x))
    (xs : List β) (sys : System α) : Sheds sys (xs.foldl f sys) :=
  List.foldlRecOn xs f (refl sys) fun _ hbefore x _ => hbefore.trans (h _ x)

/-! ## References -/

theorem acquire (sys : System α) (i : Nat) (f : Flavour) : Sheds sys (sys.acquire i f).2 := by
  unfold System.acquire
  split
  · exact refl sys
  · exact setLifetime ..

theorem relinquish (sys : System α) (i : Nat) (f : Flavour) : Sheds sys (sys.relinquish i f).2 := by
  unfold System.relinquish
  split
  · exact refl sys
  · exact setLifetime ..

theorem teardown (sys : System α) (i : Nat) : Sheds sys (sys.teardown i) := by
  unfold System.teardown
  split
  · exact refl sys
  · rename_i b _
    have huncache : Sheds sys (sys.modifyProvider b.provider fun p => p.uncache b.key i) := by
      apply modifyProvider <;>
      · intro provider
        unfold Provider.uncache
        split <;> rfl
    have hunregister (sys : System α) (s : Nat × Nat) :
        Sheds sys (sys.modifyReader s.1 fun reader => reader.unregister s.2) :=
      modifyReader sys s.1 fun reader => reader.sheds_unregister s.2
    exact huncache.trans (foldl hunregister _ _)

theorem release (sys : System α) (i : Nat) (f : Flavour) : Sheds sys (sys.release i f) :=
  (relinquish sys i f).trans (foldl teardown _ _)

/-- Readers that nothing keeps are emptied, and the others stay as they are. -/
theorem rel_clearReaders {P : Reader α → Reader α → Prop} (hrefl : ∀ reader, P reader reader)
    (hempty : ∀ reader, P reader { reader with streams := Table.empty }) (sys : System α) (r : Nat) :
    Option.Rel P sys.readers[r]? sys.clearReaders.readers[r]? := by
  show Option.Rel _ sys.readers[r]? (sys.readers.zipIdx.map _)[r]?
  rw [List.getElem?_map, List.getElem?_zipIdx]
  cases sys.readers[r]? with
  | none => exact .none
  | some reader =>
    refine .some ?_
    simp only
    split
    · exact hrefl reader
    · exact hempty reader

theorem clearReaders (sys : System α) : Sheds sys sys.clearReaders :=
  ⟨rel_clearReaders .refl (·.sheds_emptied) sys, rfl, rfl, rfl⟩

end Sheds

/-! ## Upkeep -/

/-- Upkeep sheds streams and does nothing else to them. -/
theorem Upkeep.sheds (h : Upkeep ends sys sys') : Sheds sys sys' := by
  cases h with
  | clock | hold | note => exact .of_eq rfl rfl rfl
  | provider p same views =>
    exact .modifyProvider sys p views fun provider => congrArg (·.2.2.2.1) (same provider)
  | reader r same =>
    -- Streams and their next number are among what stays the same.
    refine .modifyReader sys r fun reader => ⟨?_, congrArg (·.2.1) (same reader)⟩
    have hstreams : _ = reader.streams.entries := congrArg (·.1.entries) (same reader)
    exact hstreams ▸ .refl _
  | acquire i f => exact .acquire sys i f
  | release i f => exact .release sys i f
  | clear => exact .clearReaders sys

theorem Upkeeps.sheds (h : Upkeeps ends sys sys') : Sheds sys sys' := by
  induction h with
  | refl => exact .refl sys
  | tail _ hupkeep ih => exact ih.trans hupkeep.sheds

end System

end Metering
