import ObjectLedger.Proofs.Wire.Ledger
import ObjectLedger.Wire.Schema

/-!
# Values of a schema, there and back

Numbers, truth values, addresses and strings are written so that they can be read back whatever follows,
and so are optional values and sequences of such values, at any nesting. The one thing that can go wrong
is a length of more than 32 bits, which is refused; and even then two values are not written alike.
-/

namespace ObjectLedger.Wire

variable {α : Type}

/-! ### Writers that mark their end -/

/-- What is written can be told from what follows it. -/
def SelfDelimiting (write : α → Bytes) : Prop :=
  ∀ ⦃a b rest rest'⦄, write a ++ rest = write b ++ rest' → a = b ∧ rest = rest'

theorem SelfDelimiting.injective {write : α → Bytes} (h : SelfDelimiting write) :
    Function.Injective write := by
  intro a b heq
  have hnil : write a ++ [] = write b ++ [] := by rw [heq]
  exact (h hnil).1

theorem selfDelimiting_of_reads {r : Reader α} {write : α → Bytes} (h : ∀ a, r.Reads (write a) a) :
    SelfDelimiting write := by
  intro a b rest rest' heq
  have ha := h a 0 rest
  rw [heq, h b 0 rest'] at ha
  cases ha
  exact ⟨rfl, rfl⟩

theorem selfDelimiting_bytes : SelfDelimiting bytes := by
  intro bs bs' rest rest' heq
  simp only [bytes, List.append_assoc] at heq
  obtain ⟨hlen, heq⟩ := Reader.uleb_append_inj heq
  exact List.append_inj heq hlen

theorem selfDelimiting_string : SelfDelimiting string := by
  intro s t rest rest' heq
  obtain ⟨hbytes, hrest⟩ := selfDelimiting_bytes heq
  have hs := utf8String?_utf8Bytes s
  rw [hbytes, utf8String?_utf8Bytes] at hs
  exact ⟨(Option.some.inj hs).symm, hrest⟩

theorem SelfDelimiting.option {write : α → Bytes} (h : SelfDelimiting write) :
    SelfDelimiting (option write) := by
  intro x y rest rest' heq
  cases x with
  | none =>
    cases y with
    | none => exact ⟨rfl, (List.cons.inj heq).2⟩
    | some b => cases (List.cons.inj heq).1
  | some a =>
    cases y with
    | none => cases (List.cons.inj heq).1
    | some b =>
      obtain ⟨rfl, hrest⟩ := h (List.cons.inj heq).2
      exact ⟨rfl, hrest⟩

theorem SelfDelimiting.flatMap {write : α → Bytes} (h : SelfDelimiting write) {xs ys : List α}
    {rest rest' : Bytes} (hlen : xs.length = ys.length)
    (heq : xs.flatMap write ++ rest = ys.flatMap write ++ rest') : xs = ys ∧ rest = rest' := by
  induction xs generalizing ys with
  | nil =>
    cases ys with
    | nil => exact ⟨rfl, heq⟩
    | cons y ys => cases hlen
  | cons x xs ih =>
    cases ys with
    | nil => cases hlen
    | cons y ys =>
      simp only [List.flatMap_cons, List.append_assoc] at heq
      obtain ⟨rfl, htail⟩ := h heq
      obtain ⟨rfl, hrest⟩ := ih (Nat.succ.inj hlen) htail
      exact ⟨rfl, hrest⟩

theorem SelfDelimiting.seq {write : α → Bytes} (h : SelfDelimiting write) :
    SelfDelimiting (seq write) := by
  intro xs ys rest rest' heq
  simp only [Wire.seq, List.append_assoc] at heq
  obtain ⟨hlen, heq⟩ := Reader.uleb_append_inj heq
  exact h.flatMap hlen heq

/-! ### Schemas of pure values -/

namespace Schema

/-- Schemas of values that can be passed as they are. -/
def IsPure : Schema → Prop
  | u8 | u16 | u32 | u64 | u128 | bool | address | string => True
  | option item | seq item => item.IsPure
  | uleb | length | variant | bytes | fixed _ | digest | objectRef | owner => False

/-- Strings and sequences in a value are short enough for their lengths to be read. -/
def Fits : (s : Schema) → s.Value → Prop
  | string, v => (utf8Bytes v).length < 2 ^ 32
  | option item, x => ∀ v ∈ x, item.Fits v
  | seq item, xs => xs.length < 2 ^ 32 ∧ ∀ v ∈ xs, item.Fits v
  | _, _ => True

variable {s : Schema}

/-- No pure value takes no bytes, so a sequence has no more items than bytes. -/
theorem write_ne_nil (hs : s.IsPure) (v : s.Value) : s.write v ≠ [] := by
  cases s with
  | u8 | bool => exact List.cons_ne_nil _ _
  | u16 | u32 | u64 | u128 => exact List.cons_ne_nil _ _
  | string => exact Reader.variant_append_ne_nil _ _
  | address => exact Reader.address_ne_nil v
  | option item => cases v <;> exact List.cons_ne_nil _ _
  | seq item => exact Reader.variant_append_ne_nil _ _
  | _ => exact hs.elim

/-- **Values are read back.** Whatever follows, reading takes what was written and gives the value. -/
theorem reads_write (hs : s.IsPure) {v : s.Value} (hv : s.Fits v) : s.read.Reads (s.write v) v := by
  induction s with
  | u8 => exact Reader.reads_u8 v
  | u16 => exact Reader.reads_u16 v
  | u32 => exact Reader.reads_u32 v
  | u64 => exact Reader.reads_u64 v
  | u128 => exact Reader.reads_u128 v
  | bool => exact Reader.reads_bool v
  | address => exact Reader.reads_address v
  | string => exact Reader.reads_string hv
  | option item ih => exact Reader.reads_option fun a ha => ih hs (hv a ha)
  | seq item ih =>
    have hitems : ∀ x ∈ v, item.read.ReadsIf True (item.write x) x := fun x hx =>
      (ih hs (hv.2 x hx)).always
    exact (Reader.readsIf_seq (fun _ => hv.1) (write_ne_nil (s := item) hs) hitems).reads trivial
  | _ => exact hs.elim

/-- **Values are told apart**, also those that are too long to be read. -/
theorem selfDelimiting_write (hs : s.IsPure) : SelfDelimiting s.write := by
  induction s with
  | u8 => exact selfDelimiting_of_reads Reader.reads_u8
  | u16 => exact selfDelimiting_of_reads Reader.reads_u16
  | u32 => exact selfDelimiting_of_reads Reader.reads_u32
  | u64 => exact selfDelimiting_of_reads Reader.reads_u64
  | u128 => exact selfDelimiting_of_reads Reader.reads_u128
  | bool => exact selfDelimiting_of_reads Reader.reads_bool
  | address => exact selfDelimiting_of_reads Reader.reads_address
  | string => exact selfDelimiting_string
  | option item ih => exact (ih hs).option
  | seq item ih => exact (ih hs).seq
  | _ => exact hs.elim

end Schema

end ObjectLedger.Wire
