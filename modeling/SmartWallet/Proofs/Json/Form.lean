import SmartWallet.Proofs.Json.Number
import SmartWallet.Proofs.Json.Record

set_option autoImplicit false

/-! # Forms that read back

A type has a JSON *form* when values are written and read so that the written form of each is read
as that value (`Form`). A form also promises what is needed to put it into others: its numbers and
strings are spelled as a reader of text expects them, and it is never `null`, which an optional
field could not tell from being left out.

Here stand the forms of the common kinds, those of lists, and those of records: a record has a form
if its fields are *written* in the order of their names, each at most once, and each is read back
from where it stands. `Form.parse` is what comes of it for texts. -/

namespace SmartWallet.Json

variable {α : Type} {write : α → Json} {read : Json → Option α}

/-- Writing can be undone by reading, within other forms and from a text. -/
structure Form (write : α → Json) (read : Json → Option α) : Prop where
  read_write (x : α) : read (write x) = some x
  spelled (x : α) : (write x).Spelled
  ne_null (x : α) : write x ≠ .null

/-- The text of a form is read as the value. -/
theorem Form.parse (h : Form write read) (x : α) :
    (Json.parse (write x).render).bind read = some x := by
  rw [parse_render (h.spelled x)]
  exact h.read_write x

/-! ## Common kinds -/

theorem form_text : Form ofText text? := ⟨text?_ofText, spelled_ofText, fun _ => nofun⟩

theorem form_bytes : Form ofBytes bytes? :=
  ⟨bytes?_ofBytes, fun _ => spelled_ofText _, fun _ => nofun⟩

theorem form_bool : Form bool bool? := ⟨fun _ => rfl, fun _ => trivial, fun _ => nofun⟩

theorem form_int64 : Form (fun a : Int64 => ofInt a.toInt) int64? :=
  ⟨int64?_ofInt, fun _ => spelled_ofInt _, fun _ => nofun⟩

theorem form_uint32 : Form (fun v : UInt32 => ofInt v.toNat) uint32? :=
  ⟨uint32?_ofInt, fun _ => spelled_ofInt _, fun _ => nofun⟩

/-- A value out of a finite list is written as its name. -/
theorem form_oneOf {names : List (String × α)} {name : α → String}
    (h : ∀ x, names.lookup (name x) = some x) : Form (fun x => ofText (name x)) (oneOf? names) where
  read_write x := by rw [oneOf?_ofText, h]
  spelled x := spelled_ofText _
  ne_null x := nofun

theorem spelledItems_map (h : ∀ x, (write x).Spelled) (l : List α) :
    SpelledItems (l.map write) := by
  induction l with
  | nil => trivial
  | cons x l ih => exact ⟨h x, ih⟩

theorem Form.list (h : Form write read) :
    Form (fun l : List α => array (l.map write)) (list? read) where
  read_write l := by
    show (l.map write).mapM read = some l
    induction l with
    | nil => rfl
    | cons x l ih =>
        rw [List.map_cons, List.mapM_cons, h.read_write, ih]
        rfl
  spelled l := spelledItems_map h.spelled l
  ne_null l := nofun

/-! ## Fields that are written -/

/-- Fields in the order of some names, each name at most once, with values that are spelled. -/
structure Fields.Written (names : List String) (f : Fields) : Prop where
  names : (f.map Prod.fst).Sublist names
  spelled : ∀ x ∈ f, x.2.Spelled

namespace Fields.Written

theorem nil : Written [] [] := ⟨.slnil, nofun⟩

theorem cons (h : Form write read) (name : String) (x : α) {names : List String} {f : Fields}
    (hf : Written names f) : Written (name :: names) ((name, write x) :: f) := by
  refine ⟨hf.names.cons_cons name, ?_⟩
  intro y hy
  rcases List.mem_cons.mp hy with rfl | hy
  · exact h.spelled x
  · exact hf.spelled y hy

theorem append {names names' : List String} {f f' : Fields} (hf : Written names f)
    (hf' : Written names' f') : Written (names ++ names') (f ++ f') := by
  refine ⟨?_, ?_⟩
  · rw [List.map_append]
    exact hf.names.append hf'.names
  · intro x hx
    rcases List.mem_append.mp hx with hx | hx
    · exact hf.spelled x hx
    · exact hf'.spelled x hx

theorem optionalField (h : Form write read) (name : String) (x : Option α) :
    Written [name] (Json.optionalField name write x) := by
  cases x with
  | none => exact ⟨List.nil_sublist _, nofun⟩
  | some x => exact .cons h name x .nil

theorem listField (h : Form write read) (name : String) (l : List α) :
    Written [name] (Json.listField name write l) := by
  unfold Json.listField
  split
  · exact ⟨List.nil_sublist _, nofun⟩
  · exact .cons h.list name l .nil

end Fields.Written

/-! ## Fields that are read -/

@[simp] theorem lookup_field (name key : String) (v : Json) (f : Fields) :
    List.lookup key ((name, v) :: f) = if key = name then some v else f.lookup key := by
  rw [List.lookup_cons]
  by_cases h : key = name
  · rw [if_pos h, beq_iff_eq.mpr h]
  · rw [if_neg h, beq_eq_false_iff_ne.mpr h]

@[simp] theorem lookup_append (f g : Fields) (key : String) :
    (f ++ g).lookup key = (f.lookup key).or (g.lookup key) := List.lookup_append

@[simp] theorem lookup_optionalField (name key : String) (x : Option α) :
    (optionalField name write x).lookup key = if key = name then x.map write else none := by
  cases x with
  | none => rw [Option.map_none, ite_self, optionalField, List.lookup_nil]
  | some x => exact lookup_field name key (write x) []

@[simp] theorem lookup_listField (name key : String) (l : List α) :
    (listField name write l).lookup key
      = if key = name ∧ l ≠ [] then some (array (l.map write)) else none := by
  cases l with
  | nil => rw [if_neg fun h => h.2 rfl, listField, if_pos List.isEmpty_nil, List.lookup_nil]
  | cons x l =>
      rw [listField, if_neg (by simp), lookup_field, List.lookup_nil]
      simp only [ne_eq, reduceCtorEq, not_false_eq_true, and_true]

namespace Form

variable {f : Fields} {name : String}

theorem required (h : Form write read) {x : α} (hx : f.lookup name = some (write x)) :
    f.required name read = some x := by
  unfold Fields.required
  rw [hx]
  exact h.read_write x

theorem withDefault (h : Form write read) {x : α} (hx : f.lookup name = some (write x))
    (default : α) : f.withDefault name read default = some x := by
  unfold Fields.withDefault
  rw [hx]
  exact h.read_write x

/-- An optional field is left out, or it is not `null`. -/
theorem optional (h : Form write read) {x : Option α} (hx : f.lookup name = x.map write) :
    f.optional name read = some x := by
  unfold Fields.optional
  rw [hx]
  cases x with
  | none => rfl
  | some x =>
      rw [Option.map_some]
      split
      · rename_i heq
        cases heq
      · rename_i heq
        exact absurd (Option.some.inj heq) (h.ne_null x)
      · rename_i heq
        rw [← Option.some.inj heq, h.read_write]
        rfl

/-- A list is left out when it is empty, which is the default. -/
theorem listWithDefault (h : Form write read) {l : List α}
    (hl : f.lookup name = if l ≠ [] then some (array (l.map write)) else none) :
    f.withDefault name (list? read) [] = some l := by
  cases l with
  | nil =>
      unfold Fields.withDefault
      rw [hl]
      rfl
  | cons x l => exact h.list.withDefault hl []

end Form

/-! ## Records -/

/-- A record whose fields are written in the order of their names has a form if its fields are read
back from where they stand. -/
theorem form_record {names : List String} {fields : α → Fields} {readFields : Fields → Option α}
    (distinct : names.Nodup) (written : ∀ x, (fields x).Written names)
    (read : ∀ x f, fields x = f → readFields f = some x) :
    Form (fun x => ofFields (fields x)) (fun v => fields? names v >>= readFields) where
  read_write x := by
    have hknown : ∀ f ∈ fields x, f.1 ∈ names := fun f hf =>
      (written x).names.subset (List.mem_map_of_mem hf)
    rw [fields?_ofFields hknown ((written x).names.nodup distinct)]
    exact read x _ rfl
  spelled x := spelled_ofFields (written x).spelled
  ne_null x := nofun

end SmartWallet.Json
