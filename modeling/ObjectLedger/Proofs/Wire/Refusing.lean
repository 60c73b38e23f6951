import ObjectLedger.Proofs.Wire.Framing

/-!
# Bytes that are refused

`Fails r bs e`: in front of any other bytes, `r` stops at `bs` with the fault `e`. A composite reader
fails with the first of its parts that does, so everything in front of that part has to be read. In a
sequence the items in front need not be told apart from the one that fails: each is read or fails with
the same fault, and one of them fails.
-/

namespace ObjectLedger.Wire.Reader

variable {α β : Type} {r : Reader α} {f : α → Reader β} {bs bs' : Bytes} {a : α} {e : DecodeError}

/-- In front of any other bytes, the reader stops with a fault. -/
def Fails (r : Reader α) (bs : Bytes) (e : DecodeError) : Prop :=
  ∀ offset rest, (r ⟨offset, bs ++ rest⟩).1 = .error e

theorem bind_of_eq_error {c : Cursor} (h : (r c).1 = .error e) : ((r >>= f) c).1 = .error e := by
  show (Reader.bind r f c).1 = _
  rw [Reader.bind]
  rcases hr : r c with ⟨_ | a, c'⟩
  · simpa [hr] using h
  · simp [hr] at h

theorem fails_fail (bs : Bytes) (e : DecodeError) : (fail e : Reader α).Fails bs e :=
  fun _ _ => rfl

theorem Fails.bind (h : r.Fails bs e) (f : α → Reader β) (bs' : Bytes) :
    (r >>= f).Fails (bs ++ bs') e := by
  intro offset rest
  rw [List.append_assoc]
  exact bind_of_eq_error (h offset (bs' ++ rest))

theorem Fails.bind_nil (h : r.Fails bs e) (f : α → Reader β) : (r >>= f).Fails bs e := by
  have hbind := h.bind f []
  rwa [List.append_nil] at hbind

theorem Reads.bindFails (hr : r.Reads bs a) (hf : (f a).Fails bs' e) :
    (r >>= f).Fails (bs ++ bs') e := by
  intro offset rest
  rw [List.append_assoc, bind_of_eq_ok (hr offset (bs' ++ rest))]
  exact hf _ rest

theorem Fails.decode (h : r.Fails bs e) : r.decode bs = .error e := by
  have hr := h 0 []
  rw [List.append_nil] at hr
  exact bind_of_eq_error hr

theorem Fails.behindVariant {tag : Nat} {f : Nat → Reader α} (h : tag < 2 ^ 32)
    (hf : (f tag).Fails bs e) : (variant >>= f).Fails (Wire.variant tag ++ bs) e :=
  (reads_variant h).bindFails hf

theorem Fails.behindLength {n : Nat} {f : Nat → Reader α} (hn : n < 2 ^ 32) (hlen : n ≤ bs.length)
    (hf : (f n).Fails bs e) : (Reader.length >>= f).Fails (Wire.length n ++ bs) e := by
  intro offset rest
  have hrest : n ≤ (bs ++ rest).length := by
    rw [List.length_append]
    omega
  rw [List.append_assoc, bind_of_eq_ok (length_apply hn offset hrest)]
  exact hf _ rest

/-! ### Sequences -/

theorem times_of_eq_ok {c c' : Cursor} (h : r c = (.ok a, c')) (count : Nat) (acc : List α) :
    times r (count + 1) acc c = times r count (a :: acc) c' := by
  rw [times, h]

theorem times_of_eq_error {c : Cursor} (h : (r c).1 = .error e) (count : Nat) (acc : List α) :
    (times r (count + 1) acc c).1 = .error e := by
  rw [times]
  rcases hr : r c with ⟨_ | a, c'⟩
  · simpa [hr] using h
  · simp [hr] at h

theorem fails_times {pieces : List Bytes}
    (h : ∀ bs ∈ pieces, (∃ a, r.Reads bs a) ∨ r.Fails bs e) (hfails : ∃ bs ∈ pieces, r.Fails bs e)
    (acc : List α) : (times r pieces.length acc).Fails pieces.flatten e := by
  induction pieces generalizing acc with
  | nil =>
    obtain ⟨_, hmem, -⟩ := hfails
    cases hmem
  | cons bs pieces ih =>
    intro offset rest
    rw [List.flatten_cons, List.append_assoc, List.length_cons]
    rcases h bs List.mem_cons_self with ⟨a, hread⟩ | hfirst
    · rw [times_of_eq_ok (hread offset (pieces.flatten ++ rest))]
      have hpieces : ∀ bs' ∈ pieces, (∃ a, r.Reads bs' a) ∨ r.Fails bs' e := by
        intro bs' hmem
        exact h bs' (List.mem_cons_of_mem bs hmem)
      have hlater : ∃ bs' ∈ pieces, r.Fails bs' e := by
        obtain ⟨bs', hmem, hbs'⟩ := hfails
        rcases List.mem_cons.mp hmem with rfl | hmem
        · -- What is read does not fail.
          have herror := hbs' offset rest
          rw [hread offset rest] at herror
          cases herror
        · exact ⟨bs', hmem, hbs'⟩
      exact ih hpieces hlater (a :: acc) _ rest
    · exact times_of_eq_error (hfirst offset (pieces.flatten ++ rest)) pieces.length acc

theorem length_le_length_flatten_of_ne_nil {pieces : List Bytes} (h : ∀ bs ∈ pieces, bs ≠ []) :
    pieces.length ≤ pieces.flatten.length := by
  have hself : List.Forall₂ (fun bs bs' : Bytes => bs = bs' ∧ bs ≠ []) pieces pieces := by
    rw [List.forall₂_same]
    intro bs hbs
    exact ⟨rfl, h bs hbs⟩
  exact length_le_length_flatten hself fun _ _ hbs => hbs.2

theorem fails_pieces {pieces : List Bytes} (hlen : pieces.length < 2 ^ 32)
    (hne : ∀ bs ∈ pieces, bs ≠ []) (h : ∀ bs ∈ pieces, (∃ a, r.Reads bs a) ∨ r.Fails bs e)
    (hfails : ∃ bs ∈ pieces, r.Fails bs e) :
    (seq r).Fails (Wire.length pieces.length ++ pieces.flatten) e :=
  .behindLength hlen (length_le_length_flatten_of_ne_nil hne) (fails_times h hfails [])

theorem fails_seq {write : α → Bytes} {xs : List α} (hlen : xs.length < 2 ^ 32)
    (hne : ∀ x, write x ≠ []) (h : ∀ x ∈ xs, r.Reads (write x) x ∨ r.Fails (write x) e)
    (hfails : ∃ x ∈ xs, r.Fails (write x) e) : (seq r).Fails (Wire.seq write xs) e := by
  have hread : (seq r).Fails (Wire.length (xs.map write).length ++ (xs.map write).flatten) e := by
    apply fails_pieces
    · simpa using hlen
    · simpa using fun x _ => hne x
    · intro bs hbs
      obtain ⟨x, hx, rfl⟩ := List.mem_map.mp hbs
      exact (h x hx).imp_left fun hx => ⟨x, hx⟩
    · obtain ⟨x, hx, hfail⟩ := hfails
      exact ⟨write x, List.mem_map_of_mem hx, hfail⟩
  rwa [List.length_map, ← List.flatMap_def] at hread

theorem fails_some {write : α → Bytes} (h : r.Fails (write a) e) :
    (option r).Fails (Wire.option write (some a)) e :=
  (reads_bool true).bindFails (h.bind_nil _)

end ObjectLedger.Wire.Reader
