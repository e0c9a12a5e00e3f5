import Metering.Proofs.ListLaws
import Metering.Proofs.TableLaws
import Metering.Reader

/-!
# Stream Registries

Which streams a list of readers has registered, against a book of the streams that were ever
built and of those whose instrument is alive. Both lists of the book are in build order, and a
stream is a pair of a reader and the number it got there.

Registering a stream adds it to both lists, unregistering takes it off the living ones, and
nothing that leaves the outline of every reader alone can disturb the book.
-/

namespace Metering

variable {α : Type}

/-! ## Outlines -/

/-- What the book has to do with: the numbers of a reader's streams, the next number, and whether
the reader is closed. -/
def Reader.outline (r : Reader α) : List Nat × Nat × Bool :=
  (r.streams.keys, r.nextStream, r.closed)

/-- The numbers of the streams that are on one reader. -/
def numbersOn (r : Nat) (streams : List (Nat × Nat)) : List Nat :=
  (streams.filter fun s => s.1 == r).map (·.2)

theorem mem_numbersOn {r n : Nat} {streams : List (Nat × Nat)} :
    n ∈ numbersOn r streams ↔ (r, n) ∈ streams := by
  simp only [numbersOn, List.mem_map, List.mem_filter, beq_iff_eq]
  constructor
  · rintro ⟨⟨_, _⟩, ⟨hmem, rfl⟩, rfl⟩
    exact hmem
  · intro hmem
    exact ⟨(r, n), ⟨hmem, rfl⟩, rfl⟩

theorem numbersOn_append (r : Nat) (xs ys : List (Nat × Nat)) :
    numbersOn r (xs ++ ys) = numbersOn r xs ++ numbersOn r ys := by
  simp [numbersOn]

/-- Taking one stream away takes one number away on its own reader, and nothing elsewhere. -/
theorem numbersOn_filter_ne (r : Nat) (s : Nat × Nat) (streams : List (Nat × Nat)) :
    numbersOn r (streams.filter (· ≠ s)) =
      if s.1 = r then (numbersOn r streams).filter fun n => !(n == s.2)
      else numbersOn r streams := by
  obtain ⟨q, n⟩ := s
  induction streams with
  | nil => simp [numbersOn]
  | cons x rest ih =>
    obtain ⟨q', n'⟩ := x
    simp only [numbersOn] at ih ⊢
    -- The head is the stream itself, another one on its reader, or one elsewhere.
    by_cases heq : (q', n') = (q, n)
    · obtain ⟨rfl, rfl⟩ := Prod.mk.inj heq
      rw [List.filter_cons_of_neg (by simp), ih]
      by_cases hr : q' = r <;> simp [hr]
    · rw [List.filter_cons_of_pos (p := (· ≠ (q, n))) (decide_eq_true heq)]
      by_cases hr : q' = r
      · subst hr
        rw [List.filter_cons_of_pos (by simp), List.filter_cons_of_pos (by simp), List.map_cons,
          List.map_cons, ih]
        by_cases hq : q = q'
        · have hn : n' ≠ n := fun hn => heq (by rw [hq, hn])
          simp [hq, hn]
        · simp [hq]
      · rw [List.filter_cons_of_neg (by simpa using hr), List.filter_cons_of_neg (by simpa using hr),
          ih]

/-! ## The book -/

/-- The registries of readers agree with a book of the streams that were built, and of those that
are alive. -/
structure Registered (readers : List (Reader α)) (built live : List (Nat × Nat)) : Prop where
  listed : ∀ r reader, readers[r]? = some reader →
    reader.streams.keys = if reader.closed then [] else numbersOn r live
  bounded : ∀ s ∈ built, ∃ reader, readers[s.1]? = some reader ∧ s.2 < reader.nextStream
  nodup : built.Nodup
  live_subset : ∀ s ∈ live, s ∈ built

namespace Registered

variable {readers readers' : List (Reader α)} {built live : List (Nat × Nat)}

/-- Readers with the same outlines agree with the same book. -/
theorem of_outline_eq (h : Registered readers built live)
    (heq : readers'.map Reader.outline = readers.map Reader.outline) :
    Registered readers' built live := by
  have hget := map_getElem?_of_map_eq heq
  refine ⟨?_, ?_, h.nodup, h.live_subset⟩
  · intro r reader' hr'
    have hout := hget r
    rw [hr'] at hout
    obtain ⟨reader, hr, hsame⟩ := Option.map_eq_some_iff.mp hout.symm
    have hkeys : reader.streams.keys = reader'.streams.keys := congrArg (·.1) hsame
    have hclosed : reader.closed = reader'.closed := congrArg (·.2.2) hsame
    rw [← hkeys, ← hclosed]
    exact h.listed r reader hr
  · intro s hs
    obtain ⟨reader, hr, hlt⟩ := h.bounded s hs
    have hout := hget s.1
    rw [hr] at hout
    obtain ⟨reader', hr', hsame⟩ := Option.map_eq_some_iff.mp hout
    have hnext : reader'.nextStream = reader.nextStream := congrArg (·.2.1) hsame
    exact ⟨reader', hr', hnext ▸ hlt⟩

/-- The numbers that a reader has registered are below the next one. -/
theorem keys_lt (h : Registered readers built live) {r : Nat} {reader : Reader α}
    (hr : readers[r]? = some reader) : ∀ n ∈ reader.streams.keys, n < reader.nextStream := by
  intro n hn
  rw [h.listed r reader hr] at hn
  split at hn
  · simp at hn
  · -- An open reader lists living streams, all of which were built.
    obtain ⟨reader', hr', hlt⟩ := h.bounded (r, n) (h.live_subset _ (mem_numbersOn.mp hn))
    obtain rfl := Option.some.inj (hr'.symm.trans hr)
    exact hlt

/-- A change of one reader that keeps its next number keeps what is said of built streams. -/
theorem bounded_modify (h : Registered readers built live) (r : Nat) (f : Reader α → Reader α)
    (hf : ∀ reader, reader.nextStream ≤ (f reader).nextStream) :
    ∀ s ∈ built, ∃ reader, (readers.modify r f)[s.1]? = some reader ∧ s.2 < reader.nextStream := by
  intro s hs
  obtain ⟨reader, hr, hlt⟩ := h.bounded s hs
  by_cases hrs : r = s.1
  · subst hrs
    exact ⟨f reader, getElem?_modify_of_some f hr, Nat.lt_of_lt_of_le hlt (hf reader)⟩
  · exact ⟨reader, by rw [List.getElem?_modify_ne f readers hrs, hr], hlt⟩

/-- An open reader that takes a stream enters it at the end of both lists. -/
theorem register (h : Registered readers built live) {r : Nat} {reader : Reader α}
    (hr : readers[r]? = some reader) (hopen : reader.closed = false) (s : RegisteredStream α) :
    Registered (readers.modify r fun rd => (rd.register s).2)
      (built ++ [(r, reader.nextStream)]) (live ++ [(r, reader.nextStream)]) := by
  -- Built streams have numbers below the next one, so the pair is new to the book.
  have hfresh : (r, reader.nextStream) ∉ built := by
    intro hmem
    obtain ⟨reader', hr', hlt⟩ := h.bounded _ hmem
    obtain rfl := Option.some.inj (hr'.symm.trans hr)
    exact Nat.lt_irrefl _ hlt
  have hnew := Table.forall_ne_of_lt (h.keys_lt hr)
  have hmono (rd : Reader α) : rd.nextStream ≤ (rd.register s).2.nextStream := by
    unfold Reader.register
    split
    · exact Nat.le_refl _
    · exact Nat.le_succ _
  refine ⟨?_, ?_, ?_, ?_⟩
  · intro q rd hq
    rcases getElem?_modify_cases hq with ⟨rfl, reader', hr', rfl⟩ | ⟨hrq, hq⟩
    · obtain rfl := Option.some.inj (hr.symm.trans hr')
      simp only [Reader.register, hopen, Bool.false_eq_true, if_false, numbersOn_append]
      rw [Table.keys_insert_of_new hnew, h.listed r reader hr, hopen]
      simp [numbersOn]
    · -- On another reader the new stream has no number to add.
      have hnone : numbersOn q [(r, reader.nextStream)] = [] := by simp [numbersOn, hrq]
      rw [h.listed q rd hq, numbersOn_append, hnone, List.append_nil]
  · intro x hx
    rcases List.mem_append.mp hx with hx | hx
    · exact h.bounded_modify r _ hmono x hx
    · obtain rfl := List.mem_singleton.mp hx
      exact ⟨(reader.register s).2, getElem?_modify_of_some _ hr, by simp [Reader.register, hopen]⟩
  · refine List.nodup_append.mpr ⟨h.nodup, List.nodup_singleton _, ?_⟩
    rintro x hx y hy rfl
    exact hfresh (List.mem_singleton.mp hy ▸ hx)
  · intro x hx
    rcases List.mem_append.mp hx with hx | hx
    · exact List.mem_append_left _ (h.live_subset x hx)
    · exact List.mem_append_right _ hx

/-- Unregistering a stream takes it off the living ones; every other stream stays where it is. -/
theorem unregister (h : Registered readers built live) (s : Nat × Nat) :
    Registered (readers.modify s.1 fun rd => rd.unregister s.2) built (live.filter (· ≠ s)) := by
  refine ⟨?_, h.bounded_modify s.1 _ fun _ => Nat.le_refl _, h.nodup, ?_⟩
  · intro q rd hq
    rw [numbersOn_filter_ne]
    rcases getElem?_modify_cases hq with ⟨hsq, reader, hr, rfl⟩ | ⟨hsq, hq⟩
    · have hlisted := h.listed q reader hr
      simp only [Reader.unregister, Table.keys_erase, hlisted, if_pos hsq]
      split <;> rfl
    · rw [if_neg hsq]
      exact h.listed q rd hq
  · intro x hx
    exact h.live_subset x (List.mem_filter.mp hx).1

/-- Unregistering several streams, one after the other. -/
theorem unregisterAll (h : Registered readers built live) (streams : List (Nat × Nat)) :
    Registered (streams.foldl (fun rs s => rs.modify s.1 fun rd => rd.unregister s.2) readers)
      built (live.filter (· ∉ streams)) := by
  induction streams generalizing readers live with
  | nil =>
    have hall : live.filter (· ∉ ([] : List (Nat × Nat))) = live := by simp
    rw [hall]
    exact h
  | cons s rest ih =>
    have hsplit : live.filter (· ∉ s :: rest) = (live.filter (· ≠ s)).filter (· ∉ rest) := by
      rw [List.filter_filter]
      apply List.filter_congr
      intro x _
      simp [not_or, Bool.and_comm]
    rw [List.foldl_cons, hsplit]
    exact ih (h.unregister s)

/-- A reader that is closed and emptied lists nothing, and the others keep what they have. -/
theorem close (h : Registered readers built live) (r : Nat) {f : Reader α → Reader α}
    (hf : ∀ reader, (f reader).outline = ([], reader.nextStream, true)) :
    Registered (readers.modify r f) built live := by
  have hnext (reader : Reader α) : (f reader).nextStream = reader.nextStream :=
    congrArg (·.2.1) (hf reader)
  -- Only the listing changes: the book keeps the streams of a closed reader.
  refine ⟨?_, h.bounded_modify r f fun reader => Nat.le_of_eq (hnext reader).symm, h.nodup, h.live_subset⟩
  intro q rd hq
  rcases getElem?_modify_cases hq with ⟨-, reader, -, rfl⟩ | ⟨-, hq⟩
  · have hkeys : (f reader).streams.keys = [] := congrArg (·.1) (hf reader)
    have hclosed : (f reader).closed = true := congrArg (·.2.2) (hf reader)
    rw [hkeys, hclosed]
    rfl
  · exact h.listed q rd hq

end Registered

end Metering
