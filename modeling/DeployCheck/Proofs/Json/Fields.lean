import DeployCheck.Json.Tagged
import DeployCheck.Proofs.Json.Spelling

/-!
# Values that are read as records

Members fill a form if they are the fields of the form in its order, where only fields
that may be missing are missing. Such members are read to what the fields are read to,
and a kind in front of them is taken off again.
-/

set_option autoImplicit false

namespace DeployCheck.Json

structure ReadsAs {α : Type} (read : Value → Except ReadError α) (v : Value) (a : α) : Prop where
  exact : v.Exact
  result : read v = .ok a

/-- Members fill a form with a result. -/
inductive Fills : {α : Type} → Form Value α → List (String × Value) → α → Prop where
  | pure {α : Type} (a : α) : Fills (pure a) [] a
  | seq {α β : Type} {f : Form Value (α → β)} {x : Form Value α} {ms ms' : List (String × Value)}
      {g : α → β} {a : α} (first : Fills f ms g) (rest : Fills x ms' a) :
      Fills (f <*> x) (ms ++ ms') (g a)
  | present {α : Type} {name : String} {absent : Located → Except Located α}
      {read : Value → Except ReadError α} {v : Value} {a : α} (reads : ReadsAs read v a) :
      Fills (Form.fieldOr name absent read) [(name, v)] a
  | missing {α : Type} {name : String} {read : Value → Except ReadError α} (default : α) :
      Fills (Form.optional name default read) [] default

def given (name : String) (v : Option Value) : List (String × Value) := v.toList.map (name, ·)

/-- A field that may be missing if it has the value its absence stands for. It is written
in that case only if everything is. -/
def spared (full : Bool) (name : String) (isDefault : Bool) (v : Value) : List (String × Value) :=
  if full || !isDefault then [(name, v)] else []

section Fills

variable {α β : Type} {form : Form Value α} {members : List (String × Value)} {a : α}

theorem fills_map {g : α → β} (h : Fills form members a) : Fills (g <$> form) members (g a) :=
  .seq (.pure g) h

theorem fills_given {name : String} {read : Value → Except ReadError (Option α)} {v : Option Value}
    {a : Option α} (reads : ∀ w, v = some w → ReadsAs read w a) (lacking : v = none → a = none) :
    Fills (Form.optional name none read) (given name v) a := by
  cases v with
  | none =>
    rw [lacking rfl]
    exact .missing _
  | some v => exact .present (reads v rfl)

theorem fills_spared {name : String} {default : α} {read : Value → Except ReadError α} {v : Value}
    {full isDefault : Bool} (reads : (name, v) ∈ spared full name isDefault v → ReadsAs read v a)
    (same : isDefault = true → a = default) :
    Fills (Form.optional name default read) (spared full name isDefault v) a := by
  rw [spared] at reads ⊢
  split
  · next written =>
    rw [if_pos written] at reads
    exact .present (reads (List.mem_singleton.2 rfl))
  · next left =>
    rw [same (by simp_all)]
    exact .missing _

theorem fills_names (h : Fills form members a) : (members.map Prod.fst).Sublist form.names := by
  induction h with
  | pure => exact .slnil
  | seq _ _ ih ih' =>
    rw [List.map_append]
    exact ih.append ih'
  | present => exact .refl _
  | missing => exact List.nil_sublist _

theorem fills_exact (h : Fills form members a) : ∀ m ∈ members, m.2.Exact := by
  induction h with
  | pure | missing => exact List.forall_mem_nil _
  | seq _ _ ih ih' => exact fun m member => (List.mem_append.1 member).elim (ih m) (ih' m)
  | present reads => exact fun m member => List.mem_singleton.1 member ▸ reads.exact

def Agrees (names : List String) (members : List (String × Value)) (fields : Fields Value) : Prop :=
  ∀ i, ∀ name ∈ names, (fields.find i name).map Prod.snd = members.lookup name

theorem lookup_none {name : String} (other : name ∉ members.map Prod.fst) :
    members.lookup name = none := by
  rw [List.lookup_eq_none_iff]
  intro m member
  have differs : name ≠ m.1 := fun same => other (same ▸ List.mem_map_of_mem member)
  simp [differs]

theorem fills_read (h : Fills form members a) (distinct : form.names.Nodup) {fields : Fields Value}
    (agrees : Agrees form.names members fields) : form.read fields = .ok a := by
  induction h generalizing fields with
  | pure => rfl
  | @seq α β f x ms ms' g a first rest ih ih' =>
    obtain ⟨distinct₁, distinct₂, apart⟩ := List.nodup_append.1 distinct
    have left : f.read fields = .ok g := by
      apply ih distinct₁
      intro i name member
      have other : name ∉ ms'.map Prod.fst :=
        fun key => apart name member name ((fills_names rest).subset key) rfl
      rw [agrees i name (List.mem_append_left _ member), List.lookup_append, lookup_none other,
        Option.or_none]
    have right : x.read (fields.drop f.names.length) = .ok a := by
      apply ih' distinct₂
      intro i name member
      have other : name ∉ ms.map Prod.fst :=
        fun key => apart name ((fills_names first).subset key) name member rfl
      show (fields.find _ name).map Prod.snd = _
      rw [agrees _ name (List.mem_append_right _ member), List.lookup_append, lookup_none other,
        Option.none_or]
    show Form.both (f.read fields) (x.read (fields.drop f.names.length)) = .ok (g a)
    rw [left, right]
    rfl
  | @present α name absent read v a reads =>
    have found := agrees 0 name (List.mem_singleton.2 rfl)
    simp only [List.lookup_cons, beq_self_eq_true, Option.map_eq_some_iff] at found
    obtain ⟨⟨place, w⟩, found, rfl⟩ := found
    rw [Form.fieldOr]
    simp only [found, reads.result]
  | @missing α name read default =>
    have found := agrees 0 name (List.mem_singleton.2 rfl)
    simp only [List.lookup_nil, Option.map_eq_none_iff] at found
    rw [Form.optional, Form.fieldOr]
    simp only [found]

theorem placed_members (name : String) (place : Nat) :
    (Fields.placed name place (members.map fun m => (.ok m.1, m.2))).map Prod.snd =
      members.lookup name := by
  induction members generalizing place with
  | nil => rfl
  | cons m members ih =>
    obtain ⟨key, v⟩ := m
    simp only [List.map_cons, Fields.placed, List.lookup_cons]
    by_cases here : key = name
    · simp [here]
    · rw [if_neg here, ih, beq_eq_false_iff_ne.2 (Ne.symm here)]

theorem keyFault?_members {names seen : List String} {pass : Option (Value → Except Fault Unit)}
    (known : ∀ m ∈ members, m.1 ∈ names) (distinct : (members.map Prod.fst).Nodup)
    (fresh : ∀ m ∈ members, m.1 ∉ seen) (place : Nat) :
    Form.keyFault? names pass seen place (members.map fun m => (.ok m.1, m.2)) = none := by
  induction members generalizing seen place with
  | nil => rfl
  | cons m members ih =>
    obtain ⟨here, known⟩ := List.forall_mem_cons.1 known
    obtain ⟨unseen, fresh⟩ := List.forall_mem_cons.1 fresh
    rw [List.map_cons, List.nodup_cons] at distinct
    simp only [List.map_cons, Form.keyFault?, if_pos here, if_neg unseen]
    apply ih known distinct.2
    intro k member
    rw [List.mem_cons, not_or]
    refine ⟨fun same => distinct.1 (same ▸ List.mem_map_of_mem member), fresh k member⟩

theorem fills_ofValue (h : Fills form members a) (distinct : form.names.Nodup) :
    form.ofValue (.object members) = .ok a := by
  have keys := fills_names h
  have known : ∀ m ∈ members, m.1 ∈ form.names :=
    fun m member => keys.subset (List.mem_map_of_mem member)
  have agrees : Agrees form.names members (.ofMembers (members.map fun m => (.ok m.1, m.2))) :=
    fun _ name _ => placed_members name 0
  rw [Form.ofValue]
  simp only [keyFault?_members known (distinct.sublist keys) (fun _ _ => List.not_mem_nil), Form.run,
    fills_read h distinct agrees]

theorem exact_members (exact : ∀ m ∈ members, m.2.Exact) : MembersExact members := by
  induction members with
  | nil => trivial
  | cons m members ih =>
    rw [MembersExact]
    exact ⟨exact m List.mem_cons_self, ih fun k member => exact k (List.mem_cons_of_mem _ member)⟩

theorem readsAs_object (h : Fills form members a) (distinct : form.names.Nodup) :
    ReadsAs form.ofValue (.object members) a :=
  ⟨by rw [Value.Exact]; exact exact_members (fills_exact h), fills_ofValue h distinct⟩

end Fills

section Tagged

variable {κ : Type} [Tag κ]

def tagged (kind : κ) (fields : List (String × Value)) : Value :=
  .object ((Tag.field, .string (Tag.name kind)) :: fields)

variable {kind : κ} {fields : List (String × Value)}

theorem ofEntries_fields (plain : ∀ m ∈ fields, m.1 ≠ Tag.field) (tag : Option κ)
    (before : List (String × Value)) :
    Tag.ofEntries tag before fields = .ok (tag, before.reverse ++ fields) := by
  induction fields generalizing before with
  | nil => rw [Tag.ofEntries, List.append_nil]
  | cons m fields ih =>
    obtain ⟨here, plain⟩ := List.forall_mem_cons.1 plain
    rw [Tag.ofEntries, if_neg here, ih plain, List.reverse_cons, List.append_assoc,
      List.singleton_append]

theorem splitValue_tagged (named : Tag.ofName? (Tag.name kind) = some kind)
    (plain : ∀ m ∈ fields, m.1 ≠ Tag.field) :
    Tag.splitValue (tagged kind fields) = .ok (kind, .object fields) := by
  have tag : Tag.ofValue (.string (Tag.name kind)) = .ok kind := by
    rw [Tag.ofValue, Reader.variant, named]
  rw [tagged, Tag.splitValue, Tag.ofEntries, if_pos rfl]
  simp [tag, ofEntries_fields plain, Tag.orMissing, bind, Except.bind]

theorem ofMembers_fields (plain : ∀ m ∈ fields, m.1 ≠ Tag.field) {room : Nat}
    (fits : Value.depthOfMembers fields ≤ room) (tag : Option κ) (before : List (String × Value)) :
    Tag.ofMembers room tag before (memberReadings fields) = .ok (tag, before.reverse ++ fields) := by
  induction fields generalizing before with
  | nil => rw [memberReadings, Tag.ofMembers, List.append_nil]
  | cons m fields ih =>
    obtain ⟨here, plain⟩ := List.forall_mem_cons.1 plain
    rw [Value.depthOfMembers, Nat.max_le] at fits
    rw [memberReadings, Tag.ofMembers]
    simp only [Reading.Key.read, Except.mapError, bind, Except.bind, if_neg here,
      value_reading m.2 fits.1]
    rw [ih plain fits.2, List.reverse_cons, List.append_assoc, List.singleton_append]

theorem split_tagged (named : Tag.ofName? (Tag.name kind) = some kind)
    (plain : ∀ m ∈ fields, m.1 ≠ Tag.field) {room : Nat}
    (fits : (tagged kind fields).depth ≤ room) :
    Tag.split room (tagged kind fields).reading = .ok (kind, .object fields) := by
  have tag : Tag.ofReading (.string (.ok (Tag.name kind))) = .ok kind := by
    rw [Tag.ofReading, Reader.variant, named]
  rw [tagged, Value.depth, Value.depthOfMembers] at fits
  cases room with
  | zero => cases fits
  | succ room =>
    have inside : Value.depthOfMembers fields ≤ room := by omega
    rw [tagged, Value.reading, memberReadings, Tag.split, Tag.ofMembers]
    simp [Value.reading, Reading.Key.read, Except.mapError, tag, ofMembers_fields plain inside,
      Tag.orMissing, Tag.cut, bind, Except.bind]

theorem depth_member {m : String × Value} {members : List (String × Value)}
    (member : m ∈ members) : m.2.depth < (Value.object members).depth := by
  rw [Value.depth, Nat.lt_add_one_iff]
  induction members with
  | nil => cases member
  | cons n members ih =>
    rw [Value.depthOfMembers]
    rcases List.mem_cons.1 member with rfl | member
    · exact Nat.le_max_left ..
    · exact Nat.le_trans (ih member) (Nat.le_max_right ..)

theorem depth_tagged : (tagged kind fields).depth = (Value.object fields).depth := by
  simp [tagged, Value.depth, Value.depthOfMembers]

theorem readsAs_tagged {α : Type} {form : κ → Form Value α} {a : α}
    (named : Tag.ofName? (Tag.name kind) = some kind)
    (distinct : (Tag.field :: (form kind).names).Nodup) (fills : Fills (form kind) fields a) :
    ReadsAs (fun v => do
      let (kind, record) ← Tag.splitValue v
      (form kind).ofValue record) (tagged kind fields) a := by
  rw [List.nodup_cons] at distinct
  have plain : ∀ m ∈ fields, m.1 ≠ Tag.field := fun m member same =>
    distinct.1 (same ▸ (fills_names fills).subset (List.mem_map_of_mem member))
  constructor
  · rw [tagged, Value.Exact, MembersExact]
    exact ⟨trivial, exact_members (fills_exact fills)⟩
  · rw [splitValue_tagged named plain]
    exact fills_ofValue fills distinct.2

/-- A way to read that is given by steps, each of which has less room than the one around
it, reads a record as soon as the record is not deeper than the room. -/
theorem readsAs_within {α : Type} {read : Nat → Value → Except ReadError α}
    {form : (Value → Except ReadError α) → κ → Form Value α}
    (step : ∀ fuel, read (fuel + 1) = fun v => do
      let (kind, record) ← Tag.splitValue v
      (form (read fuel) kind).ofValue record)
    {a : α} (named : Tag.ofName? (Tag.name kind) = some kind)
    (distinct : ∀ inner, (Tag.field :: (form inner kind).names).Nodup)
    (fills : ∀ fuel, (∀ m ∈ fields, m.2.depth < fuel) → Fills (form (read fuel) kind) fields a)
    {fuel : Nat} (deep : (tagged kind fields).depth < fuel) :
    ReadsAs (read fuel) (tagged kind fields) a := by
  cases fuel with
  | zero => cases deep
  | succ fuel =>
    rw [depth_tagged] at deep
    have room : ∀ m ∈ fields, m.2.depth < fuel := fun m member =>
      Nat.lt_of_lt_of_le (depth_member member) (Nat.le_of_lt_succ deep)
    rw [step]
    exact readsAs_tagged named (distinct _) (fills fuel room)

end Tagged

end DeployCheck.Json
