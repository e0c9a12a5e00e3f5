import Metering.Proofs.ListLaws
import Metering.Proofs.TableLaws
import Metering.Reader

/-!
# Laws of Streams on Readers

A stream is found by its reader and the number it got there. These laws say which stream is found
after a reader was changed: a change of one stream shows at that stream only, and a change that
reaches all streams of a reader shows on that reader only.
-/

namespace Metering

variable {α : Type} {readers : List (Reader α)}

/-- The stream with a number on a reader. -/
def streamAt (readers : List (Reader α)) (s : Nat × Nat) : Option (RegisteredStream α) :=
  readers[s.1]?.bind fun r => r.streams.find? s.2

theorem streamAt_modify (readers : List (Reader α)) (r : Nat) (f : Reader α → Reader α)
    (s : Nat × Nat) :
    streamAt (readers.modify r f) s =
      if r = s.1 then readers[s.1]?.bind fun rd => (f rd).streams.find? s.2
      else streamAt readers s := by
  unfold streamAt
  split
  · rename_i hr
    subst hr
    rw [List.getElem?_modify_eq]
    cases readers[s.1]? <;> rfl
  · rename_i hr
    rw [List.getElem?_modify_ne f readers hr]

/-- A change that keeps the streams of a reader keeps what is found. -/
theorem streamAt_modify_of_eq {r : Nat} {f : Reader α → Reader α}
    (h : ∀ rd, readers[r]? = some rd → (f rd).streams = rd.streams) (s : Nat × Nat) :
    streamAt (readers.modify r f) s = streamAt readers s := by
  rw [streamAt_modify]
  split
  · rename_i hr
    subst hr
    unfold streamAt
    cases hrd : readers[s.1]? with
    | none => rfl
    | some rd => simp [h rd hrd]
  · rfl

theorem streamAt_unregister (readers : List (Reader α)) (s t : Nat × Nat) :
    streamAt (readers.modify s.1 fun r => r.unregister s.2) t =
      if t = s then none else streamAt readers t := by
  obtain ⟨r, n⟩ := s
  obtain ⟨q, m⟩ := t
  rw [streamAt_modify]
  -- Other readers are left alone, and so are the other numbers on the same reader.
  by_cases hr : r = q
  · subst hr
    by_cases hn : m = n
    · subst hn
      cases readers[r]? <;> simp [Reader.unregister, Table.find?_erase]
    · have hmn : (n == m) = false := by simpa using fun h => hn h.symm
      cases hrd : readers[r]? <;>
        simp [hrd, streamAt, Reader.unregister, Table.find?_erase, hn, hmn]
  · have hne : (q, m) ≠ (r, n) := fun h => hr (Prod.mk.inj h).1.symm
    rw [if_neg hr, if_neg hne]

/-- Of all streams, unregistering some of them takes away those and no others. -/
theorem streamAt_unregisterAll (readers : List (Reader α)) (streams : List (Nat × Nat))
    (t : Nat × Nat) :
    streamAt (streams.foldl (fun rs s => rs.modify s.1 fun r => r.unregister s.2) readers) t =
      if t ∈ streams then none else streamAt readers t := by
  induction streams generalizing readers with
  | nil => simp
  | cons s rest ih =>
    rw [List.foldl_cons, ih, streamAt_unregister]
    by_cases hts : t = s
    · simp [hts]
    · by_cases hrest : t ∈ rest <;> simp [hts, hrest]

/-- A change of the stream with one number shows at that stream only. -/
theorem streamAt_modifyStream (readers : List (Reader α)) (s : Nat × Nat)
    (f : RegisteredStream α → RegisteredStream α) (t : Nat × Nat) :
    streamAt (readers.modify s.1 fun r => { r with streams := r.streams.modify s.2 f }) t =
      if t = s then (streamAt readers t).map f else streamAt readers t := by
  obtain ⟨r, n⟩ := s
  obtain ⟨q, m⟩ := t
  rw [streamAt_modify]
  by_cases hr : r = q
  · subst hr
    by_cases hn : m = n
    · subst hn
      cases hrd : readers[r]? <;> simp [hrd, streamAt, Table.find?_modify]
    · have hnm : (n == m) = false := by simpa using fun h => hn h.symm
      cases hrd : readers[r]? <;> simp [hrd, streamAt, Table.find?_modify, hn, hnm]
  · have hne : (q, m) ≠ (r, n) := fun h => hr (Prod.mk.inj h).1.symm
    rw [if_neg hr, if_neg hne]

/-- A change of all streams of a reader shows on that reader only. -/
theorem streamAt_mapValues {r : Nat} {f : Reader α → Reader α}
    {g : RegisteredStream α → RegisteredStream α}
    (h : ∀ rd, readers[r]? = some rd → (f rd).streams = rd.streams.mapValues g) (s : Nat × Nat) :
    streamAt (readers.modify r f) s =
      if r = s.1 then (streamAt readers s).map g else streamAt readers s := by
  rw [streamAt_modify]
  split
  · rename_i hr
    subst hr
    unfold streamAt
    cases hrd : readers[s.1]? with
    | none => rfl
    | some rd => simp [h rd hrd, Table.find?_mapValues]
  · rfl

/-- A metric has the data of its stream. -/
theorem RegisteredStream.data_of_metric? [Quantity α] {rs : RegisteredStream α}
    {observed : Table Nat (Observations α)} {time : Time} {metric : Metric α}
    (h : rs.metric? observed time = some metric) : metric.data = rs.data observed time := by
  simp only [metric?] at h
  split at h
  · cases h
  · exact Option.some.inj h ▸ rfl

end Metering
