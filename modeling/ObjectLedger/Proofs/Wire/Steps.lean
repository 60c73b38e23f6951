import ObjectLedger.Proofs.Wire.Reading
import ObjectLedger.Wire.Schema

/-!
# Where reading stands

Reading is done in steps. The cursor is looked at, bytes are sliced off, and behind the length of a sequence
room is made for its items; a read may fail on the way and reading go on from where it stopped. A value of
`Steps r` says how the reader `r` is made of such steps, and `Steps.trace` what is done from a cursor on and
where the cursor then stands, up to the end or to a fault.

Whatever the steps, the cursor goes forward and stays inside the bytes, what is sliced off is there, and room
is made for no more items than bytes are left. The readers of all schemas are made of such steps.
-/

namespace ObjectLedger.Wire

/-! ### Cursors in some bytes -/

namespace Cursor

/-- The second cursor is the first one behind some of the bytes that are left. -/
def Reaches (c c' : Cursor) : Prop :=
  ∃ count ≤ c.remaining, c' = ⟨c.offset + count, c.rest.drop count⟩

/-- The cursor stands in some bytes, and those behind its offset are left. -/
structure Within (bs : Bytes) (c : Cursor) : Prop where
  offset_le : c.offset ≤ bs.length
  rest_eq : c.rest = bs.drop c.offset

variable {bs : Bytes} {c c₁ c' : Cursor}

theorem reaches_self (c : Cursor) : c.Reaches c := ⟨0, Nat.zero_le _, rfl⟩

theorem Reaches.trans (h : c.Reaches c₁) (h' : c₁.Reaches c') : c.Reaches c' := by
  obtain ⟨n, hn, rfl⟩ := h
  obtain ⟨m, hm, rfl⟩ := h'
  rw [remaining] at hn
  rw [remaining, List.length_drop] at hm
  refine ⟨n + m, by rw [remaining]; omega, ?_⟩
  rw [List.drop_drop, Nat.add_assoc]

theorem Reaches.offset_le (h : c.Reaches c') : c.offset ≤ c'.offset := by
  obtain ⟨n, -, rfl⟩ := h
  exact Nat.le_add_right c.offset n

theorem within_start (bs : Bytes) : (Cursor.start bs).Within bs := ⟨Nat.zero_le _, rfl⟩

theorem Within.offset_add_remaining (h : c.Within bs) : c.offset + c.remaining = bs.length := by
  have := h.offset_le
  rw [remaining, h.rest_eq, List.length_drop]
  omega

theorem Within.of_reaches (h : c.Within bs) (hc : c.Reaches c') : c'.Within bs := by
  have hsum := h.offset_add_remaining
  obtain ⟨n, hn, rfl⟩ := hc
  refine ⟨?_, ?_⟩
  · show c.offset + n ≤ bs.length
    omega
  · rw [h.rest_eq, List.drop_drop]

end Cursor

/-! ### What is done on the way -/

/-- What is done where a cursor stands. -/
inductive Access where
  /-- The offset or what is left is asked for. -/
  | look
  /-- Bytes are sliced off, for as many as are wanted. -/
  | slice (count : Nat) (bytes : Bytes)
  /-- Room is made for items. -/
  | room (count : Nat)
  deriving DecidableEq

/-- What is sliced off is there, and room is made for no more items than bytes are left. -/
def Access.Fits (c : Cursor) : Access → Prop
  | look => True
  | slice count bytes => count ≤ c.remaining ∧ bytes = c.rest.take count
  | room count => count ≤ c.remaining

/-- What is done on the way from one cursor to another goes forward, and each fits where it is done. -/
inductive Path : Cursor → List (Cursor × Access) → Cursor → Prop
  | nil {c c' : Cursor} (h : c.Reaches c') : Path c [] c'
  | cons {c c₁ c' : Cursor} {access : Access} {trace : List (Cursor × Access)} (h : c.Reaches c₁)
      (hfits : access.Fits c₁) (hrest : Path c₁ trace c') : Path c ((c₁, access) :: trace) c'

namespace Path

variable {c c₁ c' : Cursor} {access : Access} {trace trace' : List (Cursor × Access)}

theorem append (h : Path c trace c₁) (h' : Path c₁ trace' c') : Path c (trace ++ trace') c' := by
  induction h with
  | nil h =>
    cases h' with
    | nil h' => exact .nil (h.trans h')
    | cons h' hfits hrest => exact .cons (h.trans h') hfits hrest
  | cons h hfits _ ih => exact .cons h hfits (ih h')

theorem stay (c : Cursor) : Path c [] c := .nil (Cursor.reaches_self c)

theorem at_start (hfits : access.Fits c) (h : Path c trace c') : Path c ((c, access) :: trace) c' :=
  .cons (Cursor.reaches_self c) hfits h

theorem reaches (h : Path c trace c') : ∀ x ∈ trace.map (·.1) ++ [c'], c.Reaches x := by
  induction h with
  | nil h => exact List.forall_mem_singleton.mpr h
  | cons h _ _ ih => exact List.forall_mem_cons.mpr ⟨h, fun x hx => h.trans (ih x hx)⟩

theorem pairwise (h : Path c trace c') : (trace.map (·.1) ++ [c']).Pairwise Cursor.Reaches := by
  induction h with
  | nil _ => exact List.pairwise_singleton _ _
  | cons _ _ hrest ih => exact .cons hrest.reaches ih

theorem fits (h : Path c trace c') : ∀ x ∈ trace, x.2.Fits x.1 := by
  induction h with
  | nil _ => exact List.forall_mem_nil _
  | cons _ hfits _ ih => exact List.forall_mem_cons.mpr ⟨hfits, ih⟩

end Path

namespace Reader

variable {α β : Type}

/-! ### Where single reads stop -/

theorem bind_of_eq_fault {r : Reader α} {f : α → Reader β} {c c' : Cursor} {e : DecodeError}
    (h : r c = (.error e, c')) : (r >>= f) c = (.error e, c') := by
  show Reader.bind r f c = _
  rw [Reader.bind, h]

theorem take_cases (count : Nat) (c : Cursor) :
    (count ≤ c.remaining ∧
      Reader.take count c = (.ok (c.rest.take count), ⟨c.offset + count, c.rest.drop count⟩)) ∨
    ∃ e, Reader.take count c = (.error e, c) := by
  simp only [Reader.take]
  split_ifs with hlen
  · rw [List.length_take] at hlen
    exact .inl ⟨by rw [Cursor.remaining]; omega, rfl⟩
  · exact .inr ⟨_, rfl⟩

/-- What a length announces is left behind it. -/
theorem le_remaining_of_length {n : Nat} {c c' : Cursor} (h : Reader.length c = (.ok n, c')) :
    n ≤ c'.remaining := by
  obtain ⟨start, c₁, -, h⟩ := bind_eq_ok.mp h
  obtain ⟨m, c₂, -, h⟩ := bind_eq_ok.mp h
  split_ifs at h with hlen
  · cases h
  · cases h
    rw [List.length_take] at hlen
    rw [Cursor.remaining]
    omega

/-! ### Steps -/

/-- A read whose fault is a value, so that reading goes on behind it. -/
def attempt (r : Reader α) : Reader (Except DecodeError α) := fun c => (.ok (r c).1, (r c).2)

/-- How a reader is made of steps: looks at the cursor, slices, one read behind another, reads that are gone
on from when they fail, and lengths behind which room is made for what they announce. -/
inductive Steps : {α : Type} → Reader α → Type 1
  | look {α : Type} {r : Reader α} (h : ∀ c, (r c).2 = c) : Steps r
  | take (count : Nat) : Steps (Reader.take count)
  | bind {α β : Type} {r : Reader α} {f : α → Reader β} (first : Steps r)
      (next : ∀ a, Steps (f a)) : Steps (r >>= f)
  | attempt {α : Type} {r : Reader α} (steps : Steps r) : Steps (attempt r)
  | room {α : Type} {f : Nat → Reader α} (length : Steps Reader.length)
      (next : ∀ n, Steps (f n)) : Steps (Reader.length >>= f)
  /-- The same reader in other words. -/
  | same {α : Type} {r r' : Reader α} (h : r' = r) (steps : Steps r) : Steps r'

namespace Steps

variable {r r' : Reader α}

/-- What is done from a cursor on, and where. -/
def trace : {α : Type} → {r : Reader α} → Steps r → Cursor → List (Cursor × Access)
  | _, _, look _, c => [(c, .look)]
  | _, _, take count, c =>
    match Reader.take count c with
    | (.ok bytes, _) => [(c, .slice count bytes)]
    | (.error _, _) => [(c, .look)]
  | _, _, @bind _ _ r _ first next, c =>
    first.trace c ++
      match r c with
      | (.ok a, c) => (next a).trace c
      | (.error _, _) => []
  | _, _, attempt steps, c => steps.trace c
  | _, _, room length next, c =>
    length.trace c ++
      match Reader.length c with
      | (.ok n, c) => (c, .room n) :: (next n).trace c
      | (.error _, _) => []
  | _, _, same _ steps, c => steps.trace c

/-- The cursors at which something is done, and the one at which reading ends or fails. -/
def stops (steps : Steps r) (c : Cursor) : List Cursor := (steps.trace c).map (·.1) ++ [(r c).2]

/-- **Steps go forward, and fit.** -/
theorem path (steps : Steps r) (c : Cursor) : Path c (steps.trace c) (r c).2 := by
  induction steps generalizing c with
  | look h =>
    rw [h c]
    exact .at_start trivial (.stay c)
  | take count =>
    rw [trace]
    rcases take_cases count c with ⟨hcount, htake⟩ | ⟨e, htake⟩
    · rw [htake]
      exact .at_start ⟨hcount, rfl⟩ (.nil ⟨count, hcount, rfl⟩)
    · rw [htake]
      exact .at_start trivial (.stay c)
  | @bind _ _ r f first next ih ihnext =>
    have hfirst := ih c
    rw [trace]
    -- Behind a fault nothing more is done.
    rcases hr : r c with ⟨e | a, c₁⟩
    · rw [hr] at hfirst
      rw [bind_of_eq_fault hr]
      exact hfirst.append (.stay c₁)
    · rw [hr] at hfirst
      rw [bind_of_eq_ok hr]
      exact hfirst.append (ihnext a c₁)
  | attempt steps ih => exact ih c
  | @room _ f length next ih ihnext =>
    have hlength := ih c
    rw [trace]
    rcases hn : Reader.length c with ⟨e | n, c₁⟩
    · rw [hn] at hlength
      rw [bind_of_eq_fault hn]
      exact hlength.append (.stay c₁)
    · rw [hn] at hlength
      rw [bind_of_eq_ok hn]
      exact hlength.append (.at_start (le_remaining_of_length hn) (ihnext n c₁))
  | same h steps ih =>
    cases h
    exact ih c

/-! ### The steps of the readers -/

def pure (a : α) : Steps (Pure.pure a : Reader α) := .look fun _ => rfl

def fail (e : DecodeError) : Steps (Reader.fail e : Reader α) := .look fun _ => rfl

def ite {p : Prop} [Decidable p] (yes : Steps r) (no : Steps r') : Steps (if p then r else r') :=
  if h : p then .same (if_pos h) yes else .same (if_neg h) no

def offset : Steps Reader.offset := .look fun _ => rfl

theorem u8_eq_take : Reader.u8 = Reader.take 1 >>= fun bytes => Pure.pure (bytes.headD 0) := by
  funext c
  rcases c with ⟨offset, _ | ⟨b, rest⟩⟩ <;> rfl

def u8 : Steps Reader.u8 := .same u8_eq_take (.bind (.take 1) fun _ => .pure _)

def number (width : Nat) : Steps (Reader.number width) := .bind (.take width) fun _ => .pure _

def bool : Steps Reader.bool :=
  .bind offset fun _ => .bind u8 fun _ => .ite (.pure false) (.ite (.pure true) (.fail _))

def groups (start : Nat) : (fuel shift value : Nat) → Steps (Reader.groups start fuel shift value)
  | 0, _, _ => .fail _
  | fuel + 1, _, _ =>
    .bind u8 fun _ => .ite (.fail _) (.ite (.ite (.fail _) (.pure _)) (groups start fuel _ _))

def uleb : Steps Reader.uleb := .bind offset fun start => groups start 11 0 0

def uleb32 : Steps Reader.uleb32 :=
  .bind offset fun _ => .bind uleb fun _ => .ite (.fail _) (.pure _)

def length : Steps Reader.length :=
  .bind offset fun _ => .bind uleb32 fun _ => .look fun _ => by split <;> rfl

def bytes : Steps Reader.bytes := .bind length fun n => .take n

def string : Steps Reader.string :=
  .bind offset fun _ => .bind bytes fun bs => .look fun _ => by cases utf8String? bs <;> rfl

def option (item : Steps r) : Steps (Reader.option r) :=
  .bind bool fun _ => .ite (.bind item fun _ => .pure _) (.pure none)

def times (item : Steps r) : (count : Nat) → (acc : List α) → Steps (Reader.times r count acc)
  | 0, _ => .look fun _ => rfl
  | count + 1, acc => .bind item fun x => times item count (x :: acc)

def seq (item : Steps r) : Steps (Reader.seq r) := .room length fun n => times item n []

def address : Steps Reader.address :=
  .bind (.bind offset fun _ => .bind (.take 32) fun bs => .look fun _ => by
    cases Bytes32.ofBytes? bs <;> rfl) fun _ => .pure _

def digest : Steps Reader.digest :=
  .bind offset fun _ => .bind bytes fun bs => .look fun _ => by cases Bytes32.ofBytes? bs <;> rfl

def u64 : Steps Reader.u64 := .bind (number 8) fun _ => .pure _

def objectRef : Steps Reader.objectRef :=
  .bind address fun _ => .bind u64 fun _ => .bind digest fun _ => .pure _

def owner : Steps Reader.owner :=
  .bind uleb32 fun
    | 0 | 1 => .bind address fun _ => .pure _
    | 2 => .bind u64 fun _ => .pure _
    | 3 => .pure _
    | 4 => .bind u64 fun _ => .bind address fun _ => .pure _
    | _ + 5 => .fail _

/-- The reader of a schema is made of steps, and so is what nests it. -/
def ofSchema : (s : Schema) → Steps s.read
  | .u8 => u8
  | .u16 => .bind (number 2) fun _ => .pure _
  | .u32 => .bind (number 4) fun _ => .pure _
  | .u64 => u64
  | .u128 => .bind (number 16) fun _ => .pure _
  | .bool => bool
  | .uleb => uleb
  | .length => length
  | .variant => uleb32
  | .bytes => bytes
  | .fixed count => .take count
  | .string => string
  | .address => address
  | .digest => digest
  | .objectRef => objectRef
  | .owner => owner
  | .option item => option (ofSchema item)
  | .seq item => seq (ofSchema item)

/-! ### Readers within readers -/

section Visits

variable {c c₁ : Cursor} {x : Cursor × Access}

/-- While a schema is read from a cursor on, another one is read from a cursor on the way: the schema itself,
what an option holds, or an item of a sequence behind those that were read before it. -/
inductive Visits : Schema → Cursor → Schema → Cursor → Prop
  | here (s : Schema) (c : Cursor) : Visits s c s c
  | option {item s : Schema} {c c₁ c' : Cursor} (hpresent : Reader.bool c = (.ok true, c₁))
      (h : Visits item c₁ s c') : Visits (.option item) c s c'
  | seq {item s : Schema} {c c₁ c₂ c' : Cursor} {before behind : Nat} {xs : List item.Value}
      (hlength : Reader.length c = (.ok (before + 1 + behind), c₁))
      (hbefore : Reader.times item.read before [] c₁ = (.ok xs, c₂)) (h : Visits item c₂ s c') :
      Visits (.seq item) c s c'

theorem mem_trace_first {f : α → Reader β} {first : Steps r} (next : ∀ a, Steps (f a))
    (h : x ∈ first.trace c) : x ∈ (bind first next).trace c := by
  rw [trace]
  exact List.mem_append_left _ h

theorem mem_trace_next {f : α → Reader β} {first : Steps r} {next : ∀ a, Steps (f a)} {a : α}
    (hr : r c = (.ok a, c₁)) (h : x ∈ (next a).trace c₁) : x ∈ (bind first next).trace c := by
  rw [trace, hr]
  exact List.mem_append_right _ h

theorem mem_trace_room {f : Nat → Reader α} {length : Steps Reader.length}
    {next : ∀ n, Steps (f n)} {n : Nat} (hlength : Reader.length c = (.ok n, c₁))
    (h : x ∈ (c₁, .room n) :: (next n).trace c₁) : x ∈ (room length next).trace c := by
  rw [trace, hlength]
  exact List.mem_append_right _ h

theorem mem_trace_times {item : Steps r} {before behind : Nat} {acc xs : List α}
    (hbefore : Reader.times r before acc c = (.ok xs, c₁)) (h : x ∈ item.trace c₁) :
    x ∈ (times item (before + 1 + behind) acc).trace c := by
  induction before generalizing acc c with
  | zero =>
    cases hbefore
    rw [Nat.zero_add, Nat.add_comm]
    exact mem_trace_first _ h
  | succ before ih =>
    rw [Reader.times] at hbefore
    rw [show before + 1 + 1 + behind = before + 1 + behind + 1 by omega]
    rcases hr : r c with ⟨e | a, c₂⟩
    · rw [hr] at hbefore
      cases hbefore
    · rw [hr] at hbefore
      exact mem_trace_next hr (ih hbefore)

theorem mem_trace_of_visits {s t : Schema} {c' : Cursor} (hvisits : Visits s c t c')
    (h : x ∈ (ofSchema t).trace c') : x ∈ (ofSchema s).trace c := by
  induction hvisits with
  | here s c => exact h
  | option hpresent _ ih =>
    rw [ofSchema, Steps.option]
    refine mem_trace_next hpresent ?_
    rw [ite, dif_pos rfl, trace]
    exact mem_trace_first _ (ih h)
  | seq hlength hbefore _ ih =>
    rw [ofSchema, Steps.seq]
    exact mem_trace_room hlength (List.mem_cons_of_mem _ (mem_trace_times hbefore (ih h)))

theorem room_mem_trace {item : Schema} {n : Nat} (h : Reader.length c = (.ok n, c₁)) :
    (c₁, .room n) ∈ (ofSchema (.seq item)).trace c := by
  rw [ofSchema, Steps.seq]
  exact mem_trace_room h List.mem_cons_self

end Visits

end Steps

/-! ### Main statement -/

/-- Reads values one after the other, each from where the one before ended or failed. -/
def each : List Schema → Reader Unit
  | [] => Pure.pure ()
  | s :: schemas => attempt s.read >>= fun _ => each schemas

namespace Steps

def ofSchemas : (schemas : List Schema) → Steps (each schemas)
  | [] => .pure ()
  | s :: schemas => .bind (.attempt (ofSchema s)) fun _ => ofSchemas schemas

/-- While schemas are read one after the other, another one is read from a cursor on the way. -/
inductive VisitsIn : List Schema → Cursor → Schema → Cursor → Prop
  | first {s t : Schema} {schemas : List Schema} {c c' : Cursor} (h : Visits s c t c') :
      VisitsIn (s :: schemas) c t c'
  | later {s t : Schema} {schemas : List Schema} {c c' : Cursor}
      (h : VisitsIn schemas (s.read c).2 t c') : VisitsIn (s :: schemas) c t c'

theorem mem_trace_of_visitsIn {schemas : List Schema} {t : Schema} {c c' : Cursor}
    {x : Cursor × Access} (hvisits : VisitsIn schemas c t c') (h : x ∈ (ofSchema t).trace c') :
    x ∈ (ofSchemas schemas).trace c := by
  induction hvisits with
  | first hfirst =>
    rw [ofSchemas]
    refine mem_trace_first _ ?_
    rw [trace]
    exact mem_trace_of_visits hfirst h
  | @later s _ _ c _ _ ih =>
    rw [ofSchemas]
    exact mem_trace_next (a := (s.read c).1) rfl (ih h)

/-- **Reading stays inside its bytes.** From the start of any bytes on, by any steps, the offset never goes
back and never gets past the end, so what is left is what the offset leaves of the length. All bytes that are
sliced off are there, and as many as wanted. Where room is made for items, behind a length, there are no fewer
bytes left than items. And any values are read by such steps, one after the other and going on behind each
fault: wherever a sequence is read among them, in whatever options and sequences it is nested, room is made
behind its length for as many items as the length announces. -/
theorem stops_within {α : Type} {r : Reader α} (steps : Steps r) (bs : Bytes) :
    (steps.stops (.start bs)).Pairwise (fun c c' => c.offset ≤ c'.offset) ∧
    (∀ c ∈ steps.stops (.start bs), c.offset ≤ bs.length ∧ c.offset + c.remaining = bs.length ∧
      c.rest = bs.drop c.offset) ∧
    (∀ c count bytes, (c, .slice count bytes) ∈ steps.trace (.start bs) →
      c.offset + count ≤ bs.length ∧ bytes = (bs.drop c.offset).take count ∧ bytes.length = count) ∧
    (∀ c count, (c, .room count) ∈ steps.trace (.start bs) → count ≤ c.remaining) ∧
    ∀ schemas : List Schema, ∃ own : Steps (each schemas), ∀ item c c' count,
      VisitsIn schemas (.start bs) (.seq item) c → Reader.length c = (.ok count, c') →
        (c', .room count) ∈ own.trace (.start bs) ∧ count ≤ c'.remaining := by
  have hpath := steps.path (.start bs)
  have hwithin : ∀ c ∈ steps.stops (.start bs), c.Within bs := fun c hc =>
    (Cursor.within_start bs).of_reaches (hpath.reaches c hc)
  refine ⟨hpath.pairwise.imp Cursor.Reaches.offset_le, ?_, ?_, ?_, fun schemas =>
    ⟨ofSchemas schemas, ?_⟩⟩
  · intro c hc
    have h := hwithin c hc
    exact ⟨h.offset_le, h.offset_add_remaining, h.rest_eq⟩
  · intro c count bytes hmem
    have h := hwithin c (List.mem_append_left _ (List.mem_map_of_mem hmem))
    obtain ⟨hcount, hbytes⟩ : count ≤ c.remaining ∧ bytes = c.rest.take count := hpath.fits _ hmem
    have hsum := h.offset_add_remaining
    refine ⟨by omega, by rw [hbytes, h.rest_eq], ?_⟩
    rw [hbytes, List.length_take]
    exact Nat.min_eq_left hcount
  · exact fun c count hmem => hpath.fits _ hmem
  · intro item c c' count hvisits hlength
    exact ⟨mem_trace_of_visitsIn hvisits (room_mem_trace hlength), le_remaining_of_length hlength⟩

/-- Room is made for two numbers, one of which is read. The other one is cut short, and the next read starts
where that stopped. -/
example : ((ofSchemas [.seq .u16, .u8]).trace (.start [2, 1, 0, 5])).filter (·.2 ≠ .look) =
    [(⟨0, [2, 1, 0, 5]⟩, .slice 1 [2]), (⟨1, [1, 0, 5]⟩, .room 2), (⟨1, [1, 0, 5]⟩, .slice 2 [1, 0]),
      (⟨3, [5]⟩, .slice 1 [5])] := by
  decide

end Steps

end Reader

end ObjectLedger.Wire
