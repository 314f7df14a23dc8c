import RosGraph.Wire.Value
import Mathlib.Data.List.Forall2
import Mathlib.Data.List.Nodup
import Mathlib.Logic.Relation

/-! The ways to write one value down. A schema tells where a written form has records and named
cases. Of a record further fields can be given, and it can be given as the list of its fields, at
any depth. A type that is faithful to a schema reads back what it writes, does not see how a
value is spelled, and reads nothing but the spellings of what it writes. Faithfulness passes from the
contents of lists and of records to the lists and the records. -/

namespace RosGraph.Wire

open List (Forall₂)

/-- Where the records, the lists and the named cases of a written form are. -/
inductive Schema
  | plain
  | enumeration
  | list (item : Schema)
  | record (fields : List (String × Schema))

/-- One change to how a value is spelled, somewhere in it. -/
inductive Respelled : Schema → Value → Value → Prop
  | caseObject {name : String} : Respelled .enumeration (.text name) (.object [(name, .null)])
  | unknownField {fields : List (String × Schema)} {name : String} {content : Value}
      {before after : List (String × Value)} (unknown : name ∉ fields.map Prod.fst) :
      Respelled (.record fields) (.object (before ++ after)) (.object (before ++ (name, content) :: after))
  | fieldList {fields : List (String × Schema)} {given : List (String × Value)} {items : List Value}
      (each : Forall₂ (fun field item => given.lookup field.1 = some item) fields items) :
      Respelled (.record fields) (.object given) (.list items)
  | inField {fields : List (String × Schema)} {name : String} {schema : Schema} {v w : Value}
      {before after : List (String × Value)} (known : (name, schema) ∈ fields)
      (inner : Respelled schema v w) :
      Respelled (.record fields) (.object (before ++ (name, v) :: after))
        (.object (before ++ (name, w) :: after))
  | inItem {fields : List (String × Schema)} {name : String} {schema : Schema} {v w : Value}
      {before after : List Value} (known : fields[before.length]? = some (name, schema))
      (inner : Respelled schema v w) :
      Respelled (.record fields) (.list (before ++ v :: after)) (.list (before ++ w :: after))
  | inList {schema : Schema} {v w : Value} {before after : List Value} (inner : Respelled schema v w) :
      Respelled (.list schema) (.list (before ++ v :: after)) (.list (before ++ w :: after))

/-- The values are spellings of each other. -/
def Alike (schema : Schema) : Value → Value → Prop := Relation.EqvGen (Respelled schema)

/-- The type writes and reads its values by the schema. -/
structure Faithful (α : Type) [Wire α] (schema : Schema) : Prop where
  reads_back (a : α) : decode? (encode a) = some a
  respelled {v w : Value} : Respelled schema v w → (decode? v : Option α) = decode? w
  spelled {v : Value} {a : α} : decode? v = some a → Alike schema (encode a) v

/-- What is written is read back, in any spelling; writing what was read and reading it again changes
nothing; and what is read as a value is a spelling of what the value is written as. -/
structure Survives (α : Type) [Wire α] (schema : Schema) : Prop where
  reads_back (a : α) : decode? (encode a) = some a
  any_spelling {v w : Value} : Relation.ReflTransGen (Respelled schema) v w →
    (decode? v : Option α) = decode? w
  settles {v : Value} {a : α} : decode? v = some a → decode? (encode a) = some a
  nothing_else {v : Value} {a : α} : decode? v = some a ↔ Alike schema (encode a) v

variable {α : Type} [Wire α] {schema : Schema} {v w : Value}

theorem Alike.lift {schema' : Schema} (put : Value → Value)
    (hput : ∀ {v w}, Respelled schema v w → Respelled schema' (put v) (put w)) (h : Alike schema v w) :
    Alike schema' (put v) (put w) := by
  induction h with
  | rel v w h => exact .rel _ _ (hput h)
  | refl v => exact .refl _
  | symm v w _ ih => exact .symm _ _ ih
  | trans u v w _ _ ih ih' => exact .trans _ _ _ ih ih'

namespace Faithful

theorem alike (hf : Faithful α schema) (h : Alike schema v w) : (decode? v : Option α) = decode? w := by
  induction h with
  | rel v w h => exact hf.respelled h
  | refl v => rfl
  | symm v w _ ih => exact ih.symm
  | trans u v w _ _ ih ih' => exact ih.trans ih'

theorem decode?_eq_some_iff (hf : Faithful α schema) {a : α} :
    decode? v = some a ↔ Alike schema (encode a) v :=
  ⟨hf.spelled, fun h => (hf.alike h).symm.trans (hf.reads_back a)⟩

theorem survives (hf : Faithful α schema) : Survives α schema where
  reads_back := hf.reads_back
  any_spelling h := hf.alike (Relation.EqvGen.reflTransGen_le_eqvGen _ _ _ h)
  settles {_ a} _ := hf.reads_back a
  nothing_else := hf.decode?_eq_some_iff

end Faithful

section Lists
variable {β γ : Type} {R S : β → γ → Prop}

theorem mapM_eq_some_iff {f : β → Option γ} {l : List β} {m : List γ} :
    l.mapM f = some m ↔ Forall₂ (fun b c => f b = some c) l m := by
  induction l generalizing m with
  | nil => simp [eq_comm]
  | cons b l ih =>
    simp only [List.mapM_cons, Option.bind_eq_bind, Option.bind_eq_some_iff, Option.pure_def,
      Option.some.injEq, ih, List.forall₂_cons_left_iff]
    refine exists_congr fun c => ?_
    exact ⟨fun ⟨hc, m', hm', h⟩ => ⟨m', hc, hm', h.symm⟩, fun ⟨m', hc, hm', h⟩ => ⟨hc, m', hm', h.symm⟩⟩

theorem forall_mem_exists_iff {l : List β} :
    (∀ b ∈ l, ∃ c, R b c ∧ S b c) ↔ ∃ m, Forall₂ R l m ∧ Forall₂ S l m := by
  induction l with
  | nil => exact ⟨fun _ => ⟨[], .nil, .nil⟩, fun _ => by simp⟩
  | cons b l ih =>
    rw [List.forall_mem_cons, ih]
    constructor
    · rintro ⟨⟨c, hR, hS⟩, m, hRm, hSm⟩
      exact ⟨c :: m, .cons hR hRm, .cons hS hSm⟩
    · rintro ⟨m, hRm, hSm⟩
      match m, hRm, hSm with
      | c :: m, .cons hR hRm, .cons hS hSm => exact ⟨⟨c, hR, hS⟩, m, hRm, hSm⟩

theorem forall₂_replace {b : β} {c c' : γ} {l : List β} {before after : List γ}
    (hb : l[before.length]? = some b) (hc : R b c → R b c') (h : Forall₂ R l (before ++ c :: after)) :
    Forall₂ R l (before ++ c' :: after) := by
  induction before generalizing l with
  | nil =>
    cases h with
    | cons hR h =>
      obtain rfl : _ = b := by simpa using hb
      exact .cons (hc hR) h
  | cons d before ih =>
    cases h with
    | cons hR h => exact .cons hR (ih (by simpa using hb) h)

end Lists

/-- What is read from one form only has no other spelling. -/
theorem Faithful.plain (h : ∀ {v} {a : α}, decode? v = some a ↔ v = encode a) : Faithful α .plain where
  reads_back _ := h.2 rfl
  respelled hvw := nomatch hvw
  spelled hv := h.1 hv ▸ .refl _

/-- Items that can be respelled, each in its place, can be respelled together. -/
theorem alike_items {β : Type} {outer : Schema} {put : β → Value} {R : β → Value → Prop} {l : List β}
    {items : List Value}
    (hstep : ∀ {first rest : List β} {b : β} {item : Value} {before : List Value} (after : List Value),
      l = first ++ b :: rest → first.length = before.length → R b item →
      Alike outer (.list (before ++ put b :: after)) (.list (before ++ item :: after)))
    (h : Forall₂ R l items) : Alike outer (.list (l.map put)) (.list items) := by
  -- From the left: what stands before an item is respelled already.
  suffices hall : ∀ first before rest items, l = first ++ rest → first.length = List.length before →
      Forall₂ R rest items → Alike outer (.list (before ++ rest.map put)) (.list (before ++ items)) from
    hall [] [] l items rfl rfl h
  intro first before rest items hl hlength h
  induction h generalizing first before with
  | nil => exact .refl _
  | @cons b item rest items hb _ ih =>
    have hfirst := hstep (rest.map put) hl hlength hb
    have hrest := ih (first ++ [b]) (before ++ [item]) (by simp [hl]) (by simp [hlength])
    simp only [List.append_assoc, List.singleton_append] at hrest
    exact hfirst.trans _ _ _ hrest

/-- Lists are written item by item. -/
theorem Faithful.list (hf : Faithful α schema) : Faithful (List α) (.list schema) where
  reads_back l := by
    refine mapM_eq_some_iff.2 ?_
    rw [List.forall₂_map_left_iff, List.forall₂_same]
    exact fun a _ => hf.reads_back a
  respelled h := by
    cases h with
    | @inList _ v w before after inner =>
      change List.mapM decode? (before ++ v :: after) = List.mapM decode? (before ++ w :: after)
      rw [List.mapM_append, List.mapM_append, List.mapM_cons, List.mapM_cons, hf.respelled inner]
  spelled {v l} h := by
    cases v with
    | list items =>
      have hitems : Forall₂ (fun item a => decode? item = some a) items l := mapM_eq_some_iff.1 h
      refine alike_items (fun {_ _ a item before} after _ _ hitem => ?_) (List.Forall₂.flip hitems)
      exact (hf.spelled hitem).lift (fun v => .list (before ++ v :: after)) .inList
    | _ => cases h

section Enumerations

theorem caseName?_eq_some_iff {name : String} :
    v.caseName? = some name ↔ v = .text name ∨ v = .object [(name, .null)] := by
  rw [Value.caseName?.eq_def]
  split <;> simp_all

theorem decodeCase?_eq_some_iff {β : Type} {cases : List β} {name : β → String} (hcases : ∀ b, b ∈ cases)
    (hnames : (cases.map name).Nodup) {b : β} :
    decodeCase? cases name v = some b ↔ v.caseName? = some (name b) := by
  simp only [decodeCase?, Option.bind_eq_bind, Option.bind_eq_some_iff]
  constructor
  · rintro ⟨given, hgiven, hfind⟩
    rw [hgiven, show name b = given by simpa using List.find?_some hfind]
  · intro h
    refine ⟨name b, h, ?_⟩
    obtain ⟨c, hc⟩ : ∃ c, cases.find? (name · = name b) = some c :=
      Option.isSome_iff_exists.1 (List.find?_isSome.2 ⟨b, hcases b, by simp⟩)
    have hname : name c = name b := by simpa using List.find?_some hc
    rw [hc, List.inj_on_of_nodup_map hnames (hcases c) (hcases b) hname]

/-- Cases are written by their names, if the names tell them apart. -/
theorem Faithful.enumeration {cases : List α} {name : α → String}
    (hencode : ∀ a : α, encode a = .text (name a)) (hdecode : ∀ v, decode? v = decodeCase? cases name v)
    (hcases : ∀ a, a ∈ cases) (hnames : (cases.map name).Nodup) : Faithful α .enumeration where
  reads_back a := by
    rw [hdecode, decodeCase?_eq_some_iff hcases hnames, hencode, Value.caseName?]
  respelled h := by
    cases h
    rw [hdecode, hdecode]
    rfl
  spelled {v a} h := by
    rw [hdecode, decodeCase?_eq_some_iff hcases hnames, caseName?_eq_some_iff] at h
    rw [hencode]
    obtain rfl | rfl := h
    · exact .refl _
    · exact .rel _ _ .caseObject

end Enumerations

/-- A field of a record: how its content is written, and what is read as that content. -/
structure Field where
  name : String
  schema : Schema
  written : Value
  Reads : Value → Prop

namespace Field

def decl (f : Field) : String × Schema := (f.name, f.schema)

def entry (f : Field) : String × Value := (f.name, f.written)

/-- The field with this content. -/
def of (name : String) (schema : Schema) (a : α) : Field := ⟨name, schema, encode a, (decode? · = some a)⟩

structure Sound (f : Field) : Prop where
  reads_back : f.Reads f.written
  respelled {v w : Value} : Respelled f.schema v w → (f.Reads v ↔ f.Reads w)
  spelled {v : Value} : f.Reads v → Alike f.schema f.written v

end Field

theorem Faithful.field (hf : Faithful α schema) (name : String) (a : α) : (Field.of name schema a).Sound where
  reads_back := hf.reads_back a
  respelled h := by simp only [Field.of, hf.respelled h]
  spelled h := hf.spelled h

/-- The value gives each of the fields: by name, or all of them in their order. -/
def Holds (fields : List Field) : Value → Prop
  | .object given => ∀ f ∈ fields, ∃ item, given.lookup f.name = some item ∧ f.Reads item
  | .list items => Forall₂ Field.Reads fields items
  | _ => False

section Records
variable {fields : List Field}

theorem holds_iff : Holds fields v ↔
    ∃ items, v.fields? (fields.map Field.name) = some items ∧ Forall₂ Field.Reads fields items := by
  cases v with
  | object given =>
    simp only [Holds, Value.fields?, mapM_eq_some_iff, List.forall₂_map_left_iff]
    exact forall_mem_exists_iff
  | list items =>
    simp only [Holds, Value.fields?, List.length_map]
    constructor
    · exact fun h => ⟨items, if_pos h.length_eq.symm, h⟩
    · rintro ⟨items', hitems, h⟩
      split_ifs at hitems
      obtain rfl := Option.some.inj hitems
      exact h
  | _ => simp [Holds, Value.fields?]

/-- What is made of the contents of the fields is made of whatever holds them. -/
theorem fields?_bind_eq_some_iff {β : Type} {make : List Value → Option β} {b : β} (fields : List Field)
    (hmake : ∀ items, make items = some b ↔ Forall₂ Field.Reads fields items) :
    (v.fields? (fields.map Field.name)).bind make = some b ↔ Holds fields v := by
  simp only [Option.bind_eq_some_iff, hmake, holds_iff]

theorem holds_insert {name : String} {content : Value} {before after : List (String × Value)}
    (h : name ∉ fields.map Field.name) :
    Holds fields (.object (before ++ after)) ↔ Holds fields (.object (before ++ (name, content) :: after)) := by
  refine forall₂_congr fun f hf => ?_
  have hne : (f.name == name) = false := beq_false_of_ne fun h' => h (h' ▸ List.mem_map_of_mem hf)
  simp only [List.lookup_append, List.lookup_cons, hne]

theorem holds_fieldList {given : List (String × Value)} {items : List Value}
    (h : Forall₂ (fun f item => given.lookup f.name = some item) fields items) :
    Holds fields (.object given) ↔ Holds fields (.list items) := by
  simp only [Holds]
  induction h with
  | nil => simp
  | cons hitem _ ih => simp [hitem, ih]

theorem Holds.inField {name : String} {before after : List (String × Value)}
    (hread : ∀ f ∈ fields, f.name = name → f.Reads v → f.Reads w)
    (h : Holds fields (.object (before ++ (name, v) :: after))) :
    Holds fields (.object (before ++ (name, w) :: after)) := by
  intro f hf
  obtain ⟨item, hitem, hreads⟩ := h f hf
  rw [List.lookup_append, List.lookup_cons] at hitem ⊢
  by_cases hname : f.name = name
  · simp only [hname, beq_self_eq_true] at hitem ⊢
    -- An earlier entry of the name hides the one that is changed.
    cases hbefore : before.lookup name with
    | some item' =>
      rw [hbefore, Option.some_or] at hitem
      exact ⟨item', rfl, Option.some.inj hitem ▸ hreads⟩
    | none =>
      rw [hbefore, Option.none_or] at hitem
      exact ⟨w, rfl, hread f hf hname (Option.some.inj hitem ▸ hreads)⟩
  · simp only [beq_false_of_ne hname] at hitem ⊢
    exact ⟨item, hitem, hreads⟩

theorem lookup_entry (hnames : (fields.map Field.name).Nodup) {f : Field} (hf : f ∈ fields) :
    (fields.map Field.entry).lookup f.name = some f.written := by
  induction fields with
  | nil => cases hf
  | cons g fields ih =>
    rw [List.map_cons, List.nodup_cons] at hnames
    rw [List.map_cons, Field.entry, List.lookup_cons]
    obtain rfl | hf := List.mem_cons.1 hf
    · simp
    · have hne : (f.name == g.name) = false :=
        beq_false_of_ne fun h => hnames.1 (h ▸ List.mem_map_of_mem hf)
      simp only [hne, ih hnames.2 hf]

theorem holds_respelled (hnames : (fields.map Field.name).Nodup) (hsound : ∀ f ∈ fields, f.Sound)
    (h : Respelled (.record (fields.map Field.decl)) v w) : Holds fields v ↔ Holds fields w := by
  cases h with
  | unknownField unknown =>
    refine holds_insert ?_
    rwa [List.map_map] at unknown
  | fieldList each =>
    rw [List.forall₂_map_left_iff] at each
    exact holds_fieldList each
  | @inField _ name schema v w before after known inner =>
    obtain ⟨g, hg, hdecl⟩ := List.mem_map.1 known
    obtain ⟨rfl, rfl⟩ := Prod.mk.inj hdecl
    have hread : ∀ f ∈ fields, f.name = g.name → (f.Reads v ↔ f.Reads w) := fun f hf hname => by
      obtain rfl : f = g := List.inj_on_of_nodup_map hnames hf hg hname
      exact (hsound f hf).respelled inner
    exact ⟨Holds.inField fun f hf hname => (hread f hf hname).1,
      Holds.inField fun f hf hname => (hread f hf hname).2⟩
  | @inItem _ name schema v w before after known inner =>
    rw [List.getElem?_map, Option.map_eq_some_iff] at known
    obtain ⟨g, hg, hdecl⟩ := known
    obtain ⟨rfl, rfl⟩ := Prod.mk.inj hdecl
    have hread : g.Reads v ↔ g.Reads w := (hsound g (List.mem_of_getElem? hg)).respelled inner
    exact ⟨forall₂_replace hg hread.1, forall₂_replace hg hread.2⟩

/-- What is written for the fields is alike to a list of contents that are read as theirs. -/
theorem alike_of_contents {items : List Value} (hnames : (fields.map Field.name).Nodup)
    (hsound : ∀ f ∈ fields, f.Sound) (hitems : Forall₂ Field.Reads fields items) :
    Alike (.record (fields.map Field.decl)) (.object (fields.map Field.entry)) (.list items) := by
  have hwritten : Respelled (.record (fields.map Field.decl)) (.object (fields.map Field.entry))
      (.list (fields.map Field.written)) := by
    refine .fieldList ?_
    rw [List.forall₂_map_left_iff, List.forall₂_map_right_iff, List.forall₂_same]
    exact fun f hf => lookup_entry hnames hf
  refine .trans _ _ _ (.rel _ _ hwritten) (alike_items ?_ hitems)
  intro first rest f item before after hl hlength hitem
  have hf : f ∈ fields := hl ▸ List.mem_append_right _ (List.mem_cons_self ..)
  have hknown : (fields.map Field.decl)[before.length]? = some (f.name, f.schema) := by
    rw [← hlength, hl, List.getElem?_map, List.getElem?_append_right (Nat.le_refl _), Nat.sub_self]
    rfl
  exact ((hsound f hf).spelled hitem).lift (fun v => .list (before ++ v :: after)) (.inItem hknown)

theorem alike_of_holds (hnames : (fields.map Field.name).Nodup) (hsound : ∀ f ∈ fields, f.Sound)
    (h : Holds fields v) :
    Alike (.record (fields.map Field.decl)) (.object (fields.map Field.entry)) v := by
  cases v with
  | object given =>
    obtain ⟨items, hgiven, hitems⟩ := forall_mem_exists_iff.1 h
    have hlisted : Respelled (.record (fields.map Field.decl)) (.object given) (.list items) :=
      .fieldList (List.forall₂_map_left_iff.2 hgiven)
    exact (alike_of_contents hnames hsound hitems).trans _ _ _ (.symm _ _ (.rel _ _ hlisted))
  | list items => exact alike_of_contents hnames hsound h
  | _ => exact h.elim

end Records

/-- The type is written as a record of these fields, and read from whatever gives them. -/
structure IsRecord (α : Type) [Wire α] (schema : List (String × Schema)) (fields : α → List Field) : Prop where
  distinct : (schema.map Prod.fst).Nodup
  declared (a : α) : (fields a).map Field.decl = schema
  written (a : α) : encode a = .object ((fields a).map Field.entry)
  reads {v : Value} {a : α} : decode? v = some a ↔ Holds (fields a) v
  sound (a : α) : ∀ f ∈ fields a, f.Sound

theorem IsRecord.faithful {schema : List (String × Schema)} {fields : α → List Field}
    (h : IsRecord α schema fields) : Faithful α (.record schema) := by
  have hnames : ∀ a, ((fields a).map Field.name).Nodup := fun a => by
    have hdistinct := h.distinct
    rwa [← h.declared a, List.map_map] at hdistinct
  refine ⟨fun a => ?_, fun {v w} hvw => ?_, fun {v a} hv => ?_⟩
  · rw [h.reads, h.written]
    exact fun f hf => ⟨f.written, lookup_entry (hnames a) hf, (h.sound a f hf).reads_back⟩
  · refine Option.ext fun a => ?_
    rw [h.reads, h.reads]
    rw [← h.declared a] at hvw
    exact holds_respelled (hnames a) (h.sound a) hvw
  · rw [h.written, ← h.declared a]
    exact alike_of_holds (hnames a) (h.sound a) (h.reads.1 hv)

end RosGraph.Wire
