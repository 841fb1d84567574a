import NetGraphz.Base.JsText
import NetGraphz.Base.JsValue

/-! A user's settings over the defaults: `tools.extend`, its deep form above all. -/
namespace NetGraphz.SettingsTrees

/-- A tree of settings, as `JSON.parse` makes it. A number is kept as the text it
converts to; the order of an object's fields has no meaning. -/
inductive Tree where
  | null
  | bool (value : Bool)
  | num (text : JsText)
  | str (units : JsText)
  | arr (elements : List Tree)
  | obj (fields : List (JsText × Tree))

namespace Tree

/-- What a `for ... in` loop meets, each key with what is read under it. -/
def entries : Tree → List (JsText × Tree)
  | obj fields => fields
  | arr elements => elements.zipIdx.map fun (element, index) => (JsText.ofIndex index, element)
  | str units => units.zipIdx.map fun (unit, index) => (JsText.ofIndex index, str [unit])
  | _ => []

def keys (tree : Tree) : List JsText := tree.entries.map Prod.fst

/-- The length that arrays and strings own. -/
def length : Tree → Option Nat
  | arr elements => some elements.length
  | str units => some units.length
  | _ => none

/-- An own property. -/
def own (tree : Tree) (key : JsText) : Option Tree :=
  (tree.entries.lookup key).or <|
    if key = JsText.ofString "length" then tree.length.map fun length => num (JsText.ofIndex length)
    else none

/-- `hasOwnProperty` of this value can be called: it has properties at all and
none of its own in the method's place. -/
def callable : Tree → Bool
  | null => false
  | obj fields => (fields.lookup (JsText.ofString "hasOwnProperty")).isNone
  | _ => true

/-- `typeof value === "object" && !Array.isArray(value)`, which null passes. -/
def isObject : Tree → Bool
  | null => true
  | obj _ => true
  | _ => false

/-- An object with keys, not null. -/
def isRecord : Tree → Bool
  | obj _ => true
  | _ => false

def isPrimitive : Tree → Bool
  | bool _ => true
  | num _ => true
  | str _ => true
  | _ => false

theorem isObject_of_isRecord {tree : Tree} (record : tree.isRecord) : tree.isObject := by
  cases tree <;> first | rfl | cases record

@[simp] theorem own_obj (fields : List (JsText × Tree)) (key : JsText) :
    (obj fields).own key = fields.lookup key := by
  simp [own, entries, length]

/-- An own property is met by the loop, or is the length. -/
theorem mem_entries_of_own {tree value : Tree} {key : JsText} (found : tree.own key = some value)
    (object : value.isObject) : (key, value) ∈ tree.entries := by
  rcases Option.or_eq_some_iff.mp found with read | ⟨-, read⟩
  · obtain ⟨before, after, listed, -⟩ := List.lookup_eq_some_iff.mp read
    rw [listed]
    simp
  · split at read
    · obtain ⟨length, -, rfl⟩ := Option.map_eq_some_iff.mp read
      cases object
    · cases read

/-- An object under a key is smaller than what it is in. -/
theorem sizeOf_of_own {tree value : Tree} {key : JsText} (found : tree.own key = some value)
    (object : value.isObject) : sizeOf value < sizeOf tree := by
  have member := mem_entries_of_own found object
  cases tree with
  | obj fields =>
    have smaller := List.sizeOf_lt_of_mem (show (key, value) ∈ fields from member)
    simp only [obj.sizeOf_spec, Prod.mk.sizeOf_spec] at smaller ⊢
    omega
  | arr elements =>
    obtain ⟨⟨element, index⟩, among, pair⟩ := List.mem_map.mp member
    cases pair
    have smaller := List.sizeOf_lt_of_mem (List.fst_mem_of_mem_zipIdx among)
    simp only [arr.sizeOf_spec] at smaller ⊢
    omega
  | str units =>
    obtain ⟨⟨unit, index⟩, among, pair⟩ := List.mem_map.mp member
    cases pair
    cases object
  | _ => cases member

end Tree

/-- What the function hands out: a value of its arguments, or an object it made. -/
inductive Extended where
  | tree (value : Tree)
  | object (fields : List (JsText × Extended)) (proto : Prototype Extended)

namespace Extended

/-- The key whose assignment reaches a setter. -/
def protoKey : JsText := JsText.ofString "__proto__"

/-- What an assignment to `__proto__` makes of the prototype: it takes an object
or null and ignores all else. -/
def asPrototype (proto : Prototype Extended) : Extended → Prototype Extended
  | tree .null => .null
  | tree (.obj fields) => .object (tree (.obj fields))
  | tree (.arr elements) => .object (tree (.arr elements))
  | tree _ => proto
  | object fields own => .object (object fields own)

/-- `c[key] = value`, for a key that `c` does not have yet. -/
def assign (c : List (JsText × Extended) × Prototype Extended) (key : JsText) (value : Extended) :
    List (JsText × Extended) × Prototype Extended :=
  if key = protoKey then (c.1, asPrototype c.2 value)
  else (c.1 ++ [(key, value)], c.2)

end Extended

/-- `none` is a `TypeError`. An argument that is `none` is undefined. -/
def extend (a : Tree) (b : Option Tree) (deep_extend : Option Bool) : Option Extended :=
  match b with
  | none => some (.tree a)
  | some b => do
    let c ← a.keys.foldlM (fun c key =>
      if !b.callable then none
      else match a.entries.lookup key, _ : b.own key with
        | none, _ => none
        | some ours, none => some (Extended.assign c key (.tree ours))
        | some ours, some theirs =>
          if _ : deep_extend.getD false && theirs.isObject then
            (extend ours (some theirs) (some true)).map (Extended.assign c key)
          else some (Extended.assign c key (.tree theirs))) ([], .standard)
    some (.object c.1 c.2)
termination_by sizeOf b
decreasing_by
  have smaller := Tree.sizeOf_of_own ‹b.own key = _› (Bool.and_eq_true_iff.mp ‹_›).2
  simp only [Option.some.sizeOf_spec]
  omega

/-! ## What the loop makes -/

namespace Extended

/-- The fields of a value that is an object like any other. -/
def fields : Extended → Option (List (JsText × Extended))
  | tree (.obj fields) => some (fields.map fun (key, value) => (key, tree value))
  | object fields .standard => some fields
  | _ => none

def isPrimitive : Extended → Bool
  | tree value => value.isPrimitive
  | object _ _ => false

theorem asPrototype_eq_standard {proto : Prototype Extended} {value : Extended} :
    asPrototype proto value = .standard ↔ proto = .standard ∧ value.isPrimitive := by
  cases value with
  | tree value => cases value <;> simp [asPrototype, isPrimitive, Tree.isPrimitive]
  | object fields own => simp [asPrototype, isPrimitive]

theorem lookup_assign (c : List (JsText × Extended) × Prototype Extended) (first key : JsText)
    (value : Extended) : (assign c first value).1.lookup key =
      (c.1.lookup key).or (if key = first ∧ key ≠ protoKey then some value else none) := by
  unfold assign
  by_cases setter : first = protoKey
  · subst setter
    simp
  · rw [if_neg setter, List.lookup_append, List.lookup_cons, List.lookup_nil]
    by_cases own : key = first
    · subst own
      simp [setter]
    · have differs : (key == first) = false := beq_false_of_ne own
      simp [own, differs]

theorem assign_eq_standard {c : List (JsText × Extended) × Prototype Extended} {first : JsText}
    {value : Extended} : (assign c first value).2 = .standard ↔
      c.2 = .standard ∧ (first = protoKey → value.isPrimitive) := by
  unfold assign
  by_cases setter : first = protoKey
  · rw [if_pos setter, asPrototype_eq_standard]
    simp [setter]
  · rw [if_neg setter]
    simp [setter]

end Extended

open Extended (protoKey)

/-- What a deep run puts under a key; `none` is thrown. -/
def put (a b : Tree) (key : JsText) : Option Extended :=
  match a.entries.lookup key, b.own key with
  | none, _ => none
  | some ours, none => some (.tree ours)
  | some ours, some theirs =>
    if theirs.isObject then extend ours (some theirs) (some true) else some (.tree theirs)

variable {a b : Tree} {c : Extended} {key : JsText}

theorem extend_deep (a b : Tree) :
    extend a (some b) (some true) =
      (a.keys.foldlM (fun c key => if !b.callable then none
        else (put a b key).map (Extended.assign c key)) ([], .standard)).map
          fun c => .object c.1 c.2 := by
  rw [extend]
  have pass : ∀ c key,
      (if !b.callable then none
      else match a.entries.lookup key, _ : b.own key with
        | none, _ => none
        | some ours, none => some (Extended.assign c key (.tree ours))
        | some ours, some theirs =>
          if _ : (some true).getD false && theirs.isObject then
            (extend ours (some theirs) (some true)).map (Extended.assign c key)
          else some (Extended.assign c key (.tree theirs))) =
      if !b.callable then none else (put a b key).map (Extended.assign c key) := by
    intro c key
    unfold put
    cases b.callable with
    | false => rfl
    | true =>
      cases a.entries.lookup key with
      | none => rfl
      | some ours =>
        cases b.own key with
        | none => rfl
        | some theirs => cases object : theirs.isObject <;> simp [object]
  simp only [pass]
  cases a.keys.foldlM (fun c key => if !b.callable then none
    else (put a b key).map (Extended.assign c key)) ([], .standard) <;> rfl

/-- The passes of the loop, for whatever it puts under the keys. -/
theorem passes_made {f : JsText → Option Extended} {keys : List JsText}
    {c d : List (JsText × Extended) × Prototype Extended}
    (ran : keys.foldlM (fun c key => (f key).map (Extended.assign c key)) c = some d) :
    (∀ key ∈ keys, (f key).isSome) ∧
      (∀ key, d.1.lookup key =
        (c.1.lookup key).or (if key ∈ keys ∧ key ≠ protoKey then f key else none)) ∧
      (d.2 = .standard ↔
        c.2 = .standard ∧ ∀ value, protoKey ∈ keys → f protoKey = some value → value.isPrimitive) := by
  induction keys generalizing c with
  | nil =>
    cases ran
    simp
  | cons first rest ih =>
    rw [List.foldlM_cons] at ran
    obtain ⟨c', assigned, ran⟩ := Option.bind_eq_some_iff.mp ran
    obtain ⟨value, under, rfl⟩ := Option.map_eq_some_iff.mp assigned
    obtain ⟨some_rest, fields, proto⟩ := ih ran
    refine ⟨?_, ?_, ?_⟩
    · rintro key member
      rcases List.mem_cons.mp member with rfl | later
      · rw [under]
        rfl
      · exact some_rest key later
    · intro key
      rw [fields, Extended.lookup_assign]
      by_cases own : key = first
      · subst own
        by_cases setter : key = protoKey <;> simp [setter, under]
      · simp [own]
    · rw [proto, Extended.assign_eq_standard, and_assoc]
      apply and_congr_right
      intro _
      constructor
      · rintro ⟨own, others⟩ value' member under'
        rcases List.mem_cons.mp member with same | later
        · subst same
          rw [under, Option.some.injEq] at under'
          exact under' ▸ own rfl
        · exact others value' later under'
      · intro all
        refine ⟨?_, fun value' later => all value' (List.mem_cons_of_mem first later)⟩
        rintro rfl
        exact all value List.mem_cons_self under

theorem exists_passes {f : JsText → Option Extended} {keys : List JsText}
    (under : ∀ key ∈ keys, (f key).isSome) (c : List (JsText × Extended) × Prototype Extended) :
    ∃ d, keys.foldlM (fun c key => (f key).map (Extended.assign c key)) c = some d := by
  induction keys generalizing c with
  | nil => exact ⟨c, rfl⟩
  | cons first rest ih =>
    obtain ⟨value, found⟩ := Option.isSome_iff_exists.mp (under first List.mem_cons_self)
    obtain ⟨d, ran⟩ :=
      ih (fun key member => under key (List.mem_cons_of_mem first member)) (Extended.assign c first value)
    exact ⟨d, by rw [List.foldlM_cons, found]; exact ran⟩

theorem mem_keys : key ∈ a.keys ↔ (a.entries.lookup key).isSome := by
  rw [Tree.keys, List.lookup_isSome_iff]
  simp

/-- The function throws unless `hasOwnProperty` can be called and no key throws. -/
theorem exists_extend :
    (∃ c, extend a (some b) (some true) = some c) ↔
      (a.keys = [] ∨ b.callable) ∧ ∀ key ∈ a.keys, (put a b key).isSome := by
  rw [extend_deep]
  cases callable : b.callable with
  | true =>
    simp only [Bool.not_true, Bool.false_eq_true, if_false, or_true, true_and]
    constructor
    · rintro ⟨c, ran⟩
      obtain ⟨d, ran, -⟩ := Option.map_eq_some_iff.mp ran
      exact (passes_made ran).1
    · intro under
      obtain ⟨d, ran⟩ := exists_passes under ([], .standard)
      exact ⟨_, by rw [ran]; rfl⟩
  | false =>
    simp only [Bool.not_false, if_true, Bool.false_eq_true, or_false]
    cases a.keys with
    | nil => simp
    | cons first rest => simp

/-- What the function made, when it did not throw. -/
theorem extend_made (ran : extend a (some b) (some true) = some c) :
    ∃ made proto, c = .object made proto ∧
      (∀ key, made.lookup key = if key = protoKey then none else put a b key) ∧
      (proto = .standard ↔ ∀ value, put a b protoKey = some value → value.isPrimitive) := by
  have outside : ∀ key, key ∉ a.keys → put a b key = none := by
    intro key absent
    rw [mem_keys, Option.not_isSome_iff_eq_none] at absent
    unfold put
    rw [absent]
  rw [extend_deep] at ran
  obtain ⟨⟨made, proto⟩, passed, rfl⟩ := Option.map_eq_some_iff.mp ran
  have passed : a.keys.foldlM (fun c key => (put a b key).map (Extended.assign c key))
      ([], .standard) = some (made, proto) := by
    cases callable : b.callable with
    | true => simpa [callable] using passed
    | false =>
      simp only [callable, Bool.not_false, if_true] at passed
      cases keys : a.keys with
      | nil => simpa [keys] using passed
      | cons first rest => simp [keys] at passed
  obtain ⟨-, fields, standard⟩ := passes_made passed
  refine ⟨made, proto, rfl, ?_, ?_⟩
  · intro key
    rw [fields]
    by_cases setter : key = protoKey
    · simp [setter]
    · by_cases member : key ∈ a.keys
      · simp [setter, member]
      · simp [setter, member, outside key member]
  · rw [standard]
    constructor
    · intro ⟨_, ignored⟩ value under
      refine ignored value ?_ under
      by_contra absent
      rw [outside _ absent] at under
      cases under
    · exact fun ignored => ⟨rfl, fun value _ => ignored value⟩

/-! ## What the result ought to be -/

/-- The value reads as the tree. -/
inductive Reads : Extended → Tree → Prop
  | same (value : Tree) : Reads (.tree value) value
  | object {c : Extended} {made : List (JsText × Extended)} {fields : List (JsText × Tree)}
      (shape : c.fields = some made)
      (keys : ∀ key, (made.lookup key).isSome ↔ (fields.lookup key).isSome)
      (values : ∀ key under value, made.lookup key = some under → fields.lookup key = some value →
        Reads under value) : Reads c (.obj fields)

/-- The value holds, under every key of `a`, what `b` has there, gone into where
both have objects, and what `a` has where `b` has nothing. -/
inductive Merged : Tree → Tree → Extended → Prop
  | taken {a b : Tree} {c : Extended} (apart : ¬(a.isRecord ∧ b.isRecord)) (reads : Reads c b) :
      Merged a b c
  | merged {ours theirs : List (JsText × Tree)} {c : Extended} {made : List (JsText × Extended)}
      (shape : c.fields = some made)
      (present : ∀ key, (ours.lookup key).isSome → (made.lookup key).isSome)
      (kept : ∀ key under value, made.lookup key = some under → ours.lookup key = some value →
        theirs.lookup key = none → Reads under value)
      (both : ∀ key under mine yours, made.lookup key = some under → ours.lookup key = some mine →
        theirs.lookup key = some yours → Merged mine yours under) :
      Merged (.obj ours) (.obj theirs) c

/-! ## When it is -/

/-- The object `b` has the keys that the loop meets in `a`, and on down. -/
inductive Copied : Tree → Tree → Prop
  | copied {a : Tree} {fields : List (JsText × Tree)}
      (callable : a.keys = [] ∨ fields.lookup (JsText.ofString "hasOwnProperty") = none)
      (keys : ∀ key, (fields.lookup key).isSome ↔ key ∈ a.keys ∧ key ≠ protoKey)
      (proto : ∀ value, a.entries.lookup protoKey = some value → value.isPrimitive)
      (values : ∀ key ours theirs, a.entries.lookup key = some ours →
        fields.lookup key = some theirs → theirs.isObject → Copied ours theirs) :
      Copied a (.obj fields)

/-- Whatever `b` has under a key of `a` is an array or a scalar other than null,
or an object: one that merges with an object of `a`, or one that has just the keys of
a value of another kind. -/
inductive Mergeable : Tree → Tree → Prop
  | copied {a b : Tree} (different : ¬a.isRecord) (copied : Copied a b) : Mergeable a b
  | merged {ours theirs : List (JsText × Tree)}
      (callable : ours = [] ∨ theirs.lookup (JsText.ofString "hasOwnProperty") = none)
      (proto : ours.lookup protoKey = none)
      (both : ∀ key mine yours, ours.lookup key = some mine → theirs.lookup key = some yours →
        yours.isObject → Mergeable mine yours) :
      Mergeable (.obj ours) (.obj theirs)

/-! ## One level -/

theorem put_alone {ours : Tree} (mine : a.entries.lookup key = some ours)
    (absent : b.own key = none) : put a b key = some (.tree ours) := by
  unfold put
  rw [mine, absent]

theorem put_plain {ours theirs : Tree} (mine : a.entries.lookup key = some ours)
    (yours : b.own key = some theirs) (plain : theirs.isObject = false) :
    put a b key = some (.tree theirs) := by
  unfold put
  rw [mine, yours]
  simp [plain]

theorem put_object {ours theirs : Tree} (mine : a.entries.lookup key = some ours)
    (yours : b.own key = some theirs) (object : theirs.isObject) :
    put a b key = extend ours (some theirs) (some true) := by
  unfold put
  rw [mine, yours]
  simp [object]

/-- What is under a key of both was taken as it is, or made one level further down. -/
theorem put_cases {ours theirs : Tree} (mine : a.entries.lookup key = some ours)
    (yours : b.own key = some theirs) (under : put a b key = some c) :
    theirs.isObject = false ∧ c = .tree theirs ∨
      theirs.isObject ∧ extend ours (some theirs) (some true) = some c := by
  cases object : theirs.isObject with
  | false =>
    rw [put_plain mine yours object, Option.some.injEq] at under
    exact Or.inl ⟨rfl, under.symm⟩
  | true => exact Or.inr ⟨rfl, put_object mine yours object ▸ under⟩

theorem put_isSome {fields : List (JsText × Tree)}
    (further : ∀ key ours theirs, a.entries.lookup key = some ours →
      fields.lookup key = some theirs → theirs.isObject →
      ∃ c, extend ours (some theirs) (some true) = some c) (member : key ∈ a.keys) :
    (put a (.obj fields) key).isSome := by
  obtain ⟨ours, mine⟩ := Option.isSome_iff_exists.mp (mem_keys.mp member)
  cases yours : (Tree.obj fields).own key with
  | none => rw [put_alone mine yours]; rfl
  | some theirs =>
    cases object : theirs.isObject with
    | false => rw [put_plain mine yours object]; rfl
    | true =>
      obtain ⟨c, ran⟩ := further key ours theirs mine (by simpa using yours) object
      rw [put_object mine yours object, ran]
      rfl

theorem mem_keys_of_put (under : put a b key = some c) : key ∈ a.keys := by
  rw [mem_keys]
  unfold put at under
  cases mine : a.entries.lookup key with
  | none => simp [mine] at under
  | some ours => rfl

theorem callable_obj (fields : List (JsText × Tree)) :
    (Tree.obj fields).callable = true ↔ fields.lookup (JsText.ofString "hasOwnProperty") = none := by
  rw [Tree.callable, Option.isNone_iff_eq_none]

/-- A tree that was made anew has the prototype and the fields it reads with. -/
theorem Extended.shape_object {made fields : List (JsText × Extended)} {proto : Prototype Extended}
    (shape : (Extended.object made proto).fields = some fields) :
    proto = .standard ∧ made = fields := by
  cases proto with
  | standard => exact ⟨rfl, Option.some.inj shape⟩
  | null => cases shape
  | object value => cases shape

/-! ## Where the object of the settings is rebuilt -/

theorem copied_of_reads (ran : extend a (some b) (some true) = some c) (reads : Reads c b) :
    Copied a b := by
  induction reads generalizing a with
  | same value =>
    obtain ⟨made, proto, made_anew, -⟩ := extend_made ran
    cases made_anew
  | @object c made' fields shape keys values ih =>
    obtain ⟨made, proto, rfl, lookups, standard⟩ := extend_made ran
    obtain ⟨rfl, rfl⟩ := Extended.shape_object shape
    obtain ⟨callable, under⟩ := exists_extend.mp ⟨_, ran⟩
    have setter : fields.lookup protoKey = none := by
      rw [← Option.not_isSome_iff_eq_none, ← keys, lookups, if_pos rfl]
      simp
    refine .copied (callable.imp_right (callable_obj fields).mp) ?_ ?_ ?_
    · intro key
      rw [← keys, lookups]
      by_cases own : key = protoKey
      · simp [own]
      · rw [if_neg own, and_iff_left own]
        refine ⟨fun found => ?_, under key⟩
        obtain ⟨c, found⟩ := Option.isSome_iff_exists.mp found
        exact mem_keys_of_put found
    · intro value mine
      exact standard.mp rfl _ (put_alone mine (by rw [Tree.own_obj, setter]))
    · intro key ours theirs mine yours object
      have other : key ≠ protoKey := by
        rintro rfl
        rw [setter] at yours
        cases yours
      obtain ⟨inner, found⟩ := Option.isSome_iff_exists.mp ((keys key).mpr (by rw [yours]; rfl))
      refine ih key inner theirs found yours ?_
      rw [← put_object mine (by rw [Tree.own_obj, yours]) object, ← found, lookups, if_neg other]

theorem Copied.reads (copied : Copied a b) :
    ∃ c, extend a (some b) (some true) = some c ∧ Reads c b := by
  induction copied with
  | @copied a fields callable keys proto values ih =>
    have under : ∀ key ∈ a.keys, (put a (.obj fields) key).isSome := fun key =>
      put_isSome fun key ours theirs mine yours object =>
        (ih key ours theirs mine yours object).imp fun _ => And.left
    obtain ⟨c, ran⟩ := exists_extend.mpr ⟨callable.imp_right (callable_obj fields).mpr, under⟩
    obtain ⟨made, proto', rfl, lookups, standard⟩ := extend_made ran
    have setter : fields.lookup protoKey = none := by
      rw [← Option.not_isSome_iff_eq_none, keys]
      exact fun both => both.2 rfl
    obtain rfl : proto' = .standard := by
      refine standard.mpr fun value found => ?_
      obtain ⟨mine, read⟩ := Option.isSome_iff_exists.mp (mem_keys.mp (mem_keys_of_put found))
      rw [put_alone read (by rw [Tree.own_obj, setter]), Option.some.injEq] at found
      exact found ▸ proto mine read
    refine ⟨_, ran, .object rfl ?_ ?_⟩
    · intro key
      rw [keys, lookups]
      by_cases own : key = protoKey
      · simp [own]
      · rw [if_neg own, and_iff_left own]
        refine ⟨fun found => ?_, under key⟩
        obtain ⟨c, found⟩ := Option.isSome_iff_exists.mp found
        exact mem_keys_of_put found
    · intro key inner value found yours
      obtain ⟨member, other⟩ := (keys key).mp (by rw [yours]; rfl)
      obtain ⟨ours, mine⟩ := Option.isSome_iff_exists.mp (mem_keys.mp member)
      rw [lookups, if_neg other] at found
      rcases put_cases mine (by rw [Tree.own_obj, yours]) found with ⟨-, rfl⟩ | ⟨object, made⟩
      · exact .same value
      · obtain ⟨c, again, reads⟩ := ih key ours value mine yours object
        rw [made, Option.some.injEq] at again
        exact again ▸ reads

/-! ## Where the two merge -/

theorem mergeable_of_merged (ran : extend a (some b) (some true) = some c)
    (merged : Merged a b c) : Mergeable a b := by
  induction merged with
  | taken apart reads =>
    have copied := copied_of_reads ran reads
    refine .copied (fun record => apart ⟨record, ?_⟩) copied
    cases copied
    rfl
  | @merged ours theirs c made' shape present kept both ih =>
    obtain ⟨made, proto, rfl, lookups, standard⟩ := extend_made ran
    obtain ⟨rfl, rfl⟩ := Extended.shape_object shape
    obtain ⟨callable, under⟩ := exists_extend.mp ⟨_, ran⟩
    have setter : ours.lookup protoKey = none := by
      rw [← Option.not_isSome_iff_eq_none]
      intro member
      have found := present protoKey member
      rw [lookups, if_pos rfl] at found
      cases found
    refine .merged (callable.imp List.map_eq_nil_iff.mp (callable_obj theirs).mp) setter ?_
    intro key mine yours our their object
    have other : key ≠ protoKey := by
      rintro rfl
      rw [setter] at our
      cases our
    obtain ⟨inner, found⟩ := Option.isSome_iff_exists.mp (present key (by rw [our]; rfl))
    refine ih key inner mine yours found our their ?_
    rw [← put_object (a := .obj ours) our (by rw [Tree.own_obj, their]) object, ← found, lookups, if_neg other]

theorem Mergeable.merged_extend (mergeable : Mergeable a b) :
    ∃ c, extend a (some b) (some true) = some c ∧ Merged a b c := by
  induction mergeable with
  | copied different copied =>
    obtain ⟨c, ran, reads⟩ := copied.reads
    exact ⟨c, ran, .taken (fun both => different both.1) reads⟩
  | @merged ours theirs callable setter both ih =>
    have under : ∀ key ∈ (Tree.obj ours).keys, (put (.obj ours) (.obj theirs) key).isSome :=
      fun key => put_isSome fun key mine yours our their object =>
        (ih key mine yours our their object).imp fun _ => And.left
    obtain ⟨c, ran⟩ := exists_extend.mpr
      ⟨callable.imp (fun none => by rw [none]; rfl) (callable_obj theirs).mpr, under⟩
    obtain ⟨made, proto, rfl, lookups, standard⟩ := extend_made ran
    obtain rfl : proto = .standard := by
      refine standard.mpr fun value found => ?_
      have member := mem_keys.mp (mem_keys_of_put found)
      rw [show (Tree.obj ours).entries.lookup protoKey = none from setter] at member
      cases member
    have other : ∀ key, (ours.lookup key).isSome → key ≠ protoKey := by
      rintro key member rfl
      rw [setter] at member
      cases member
    refine ⟨_, ran, .merged rfl ?_ ?_ ?_⟩
    · intro key member
      rw [lookups, if_neg (other key member)]
      exact under key (mem_keys.mpr member)
    · intro key inner value found our absent
      rw [lookups, if_neg (other key (by rw [our]; rfl)),
        put_alone our (by rw [Tree.own_obj, absent]), Option.some.injEq] at found
      exact found ▸ .same value
    · intro key inner mine yours found our their
      rw [lookups, if_neg (other key (by rw [our]; rfl))] at found
      rcases put_cases our (by rw [Tree.own_obj, their]) found with ⟨plain, rfl⟩ | ⟨object, made⟩
      · refine .taken (fun both => ?_) (.same yours)
        rw [Tree.isObject_of_isRecord both.2] at plain
        cases plain
      · obtain ⟨c, again, merged⟩ := ih key mine yours our their object
        rw [made, Option.some.injEq] at again
        exact again ▸ merged

/-- The settings end up over the defaults exactly when the trees can be merged. -/
theorem extend_merges_iff (a b : Tree) :
    (∃ c, extend a (some b) (some true) = some c ∧ Merged a b c) ↔ Mergeable a b :=
  ⟨fun ⟨_, ran, merged⟩ => mergeable_of_merged ran merged, Mergeable.merged_extend⟩

/-- The object with one field. -/
def single (key : String) (value : Tree) : Tree := .obj [(JsText.ofString key, value)]

/-- A null in the settings, where the defaults have an object. -/
theorem null_over_object_throws :
    extend (single "toastr" (single "debug" (.bool false))) (some (single "toastr" .null)) (some true) =
        none ∧
      ¬∃ c, extend (single "toastr" (single "debug" (.bool false))) (some (single "toastr" .null))
          (some true) = some c ∧
        Merged (single "toastr" (single "debug" (.bool false))) (single "toastr" .null) c := by
  have inner : extend (single "debug" (.bool false)) (some .null) (some true) = none := by
    rw [extend_deep]
    rfl
  have under : put (single "toastr" (single "debug" (.bool false))) (single "toastr" .null)
      (JsText.ofString "toastr") = none :=
    (put_object rfl rfl rfl).trans inner
  have throws : extend (single "toastr" (single "debug" (.bool false)))
      (some (single "toastr" .null)) (some true) = none := by
    by_contra ran
    obtain ⟨c, ran⟩ := Option.ne_none_iff_exists'.mp ran
    have made := (exists_extend.mp ⟨c, ran⟩).2 _ List.mem_cons_self
    rw [under] at made
    cases made
  refine ⟨throws, ?_⟩
  rintro ⟨c, ran, -⟩
  rw [throws] at ran
  cases ran

end NetGraphz.SettingsTrees
