import Crossing.Proofs.Outcome
import Crossing.Yaml.Reader
import Mathlib.Data.List.Nodup
import Mathlib.Data.Option.Basic

/-!
# Reading nodes

A document without anchors is a tree of nodes, whose items are a flat list. A reader is *local* if
it takes the items of one node and leaves what comes after them, so what it makes of the node does
not depend on where the node stands, apart from the path that its complaints mention. The readers of
scalars are local, and those of sequences and records are if the readers of their parts are.

For a record this comes with a second way to say how it is read: entry by entry on the tree
(`fill`), with no fuel and no items left over. A record is read exactly if each key names a field,
no two the same, and each value suits its field (`keys_of_fill`, `exists_fill`). Each part of the
record is then what its field reads of the value under its name, or what the blank record has
(`Part.get_of_fill`), and an entry for what the blank record has anyway changes nothing
(`Part.fill_of_default`).
-/

namespace Crossing.Yaml

open Schema (Complaint)

/-- A node of a document, without anchors and aliases. -/
inductive Node
  | scalar (s : Scalar)
  | sequence (tag : Option Tag) (elements : List Node)
  | mapping (tag : Option Tag) (entries : List (Node × Node))

namespace Node

mutual

/-- The items of a node. -/
def items : Node → List Item
  | scalar s => [.scalar s]
  | sequence tag elements => .sequenceStart tag :: (itemsOfAll elements ++ [.sequenceEnd])
  | mapping tag entries => .mappingStart tag :: (itemsOfEntries entries ++ [.mappingEnd])

/-- The items of some nodes, one after the other. -/
def itemsOfAll : List Node → List Item
  | [] => []
  | v :: vs => v.items ++ itemsOfAll vs

/-- The items of a key and of its value. -/
def itemsOfEntry : Node × Node → List Item
  | (key, value) => key.items ++ value.items

/-- The items of some entries, one after the other. -/
def itemsOfEntries : List (Node × Node) → List Item
  | [] => []
  | e :: es => itemsOfEntry e ++ itemsOfEntries es

end

/-- The name that a key spells, if it is a scalar. -/
def name? : Node → Option String
  | scalar s => some s.text
  | _ => none

/-- Each node has an item at least. -/
theorem length_items_pos (v : Node) : 0 < v.items.length := by
  cases v <;> exact Nat.succ_pos _

/-- A sequence has at least as many items as elements, so its items are enough fuel to read it. -/
theorem length_le_itemsOfAll (vs : List Node) : vs.length ≤ (itemsOfAll vs).length := by
  induction vs with
  | nil => exact Nat.le_refl _
  | cons v vs ih =>
    have hv := v.length_items_pos
    rw [itemsOfAll, List.length_append, List.length_cons]
    omega

theorem length_le_itemsOfEntries (es : List (Node × Node)) :
    es.length ≤ (itemsOfEntries es).length := by
  induction es with
  | nil => exact Nat.le_refl _
  | cons e es ih =>
    have hkey := e.1.length_items_pos
    rw [itemsOfEntries, itemsOfEntry, List.length_append, List.length_append, List.length_cons]
    omega

end Node

/-! ### Local readers -/

variable {α σ : Type}

/-- What a reader makes of a node that stands alone, at a path. -/
def Reader.on (r : Reader α) (v : Node) (path : Path) : Except Issue α :=
  (r ⟨[], [], none, false⟩ path v.items).map Prod.fst

/-- A reader takes one node and leaves what comes after it. -/
def Reader.Local (r : Reader α) : Prop :=
  ∀ v d path rest, r d path (v.items ++ rest) = (r.on v path).map (·, rest)

theorem map_map_fst {ε β : Type} (x : Except ε α) (b : β) :
    (x.map (·, b)).map Prod.fst = x := by
  cases x <;> rfl

/-- What a reader makes of a node can be read off any text that starts with it. -/
theorem Reader.on_eq {r : Reader α} {v : Node} {path : Path} {x : Except Issue α}
    (h : ∀ d rest, r d path (v.items ++ rest) = x.map (·, rest)) : r.on v path = x := by
  rw [on, ← List.append_nil v.items, h, map_map_fst]

/-- A reader is local if it takes the items of the node, and what it reads does not depend on what
follows. -/
theorem Reader.local_of_forall {r : Reader α} (h : ∀ (v : Node) path, ∃ x : Except Issue α,
    ∀ d rest, r d path (v.items ++ rest) = x.map (·, rest)) : r.Local := by
  intro v d path rest
  obtain ⟨x, hx⟩ := h v path
  rw [on_eq hx, hx]

theorem local_readText (expected : String) : (readText expected).Local := by
  rintro (_ | _ | _) d path rest <;> rfl

theorem local_readUInt64 (expected : String) : (readUInt64 expected).Local := by
  rintro (s | _ | _) d path rest
  · simp only [Reader.on, readUInt64, Node.items, List.cons_append, atNode]
    split <;> rfl
  · rfl
  · rfl

theorem local_readOptionalText (outer : Path) (expected : String) :
    (readOptionalText outer expected).Local := by
  rintro (⟨text, style, _ | tag⟩ | _ | _) d path rest
  · simp only [Reader.on, readOptionalText, Node.items, List.cons_append, List.nil_append, atNode]
    split_ifs <;> rfl
  · simp only [Reader.on, readOptionalText, Node.items, List.cons_append, List.nil_append, atNode]
    split_ifs <;> rfl
  · rfl
  · rfl

/-- A field that sets a part of a record to what its reader reads. -/
def Field.setting (name : String) (r : Path → Reader α) (set : α → σ → σ) : Field σ :=
  ⟨name, fun outer d path items ↦ (r outer d path items).map fun x ↦ (set x.1, x.2)⟩

/-- A setting reads what its reader reads. -/
theorem local_setting {name : String} {r : Path → Reader α} {set : α → σ → σ} {outer : Path}
    (h : (r outer).Local) : ((Field.setting name r set).read outer).Local := by
  refine Reader.local_of_forall fun v path ↦ ⟨((r outer).on v path).map set, fun d rest ↦ ?_⟩
  show (r outer d path (v.items ++ rest)).map _ = _
  rw [h]
  cases (r outer).on v path <;> rfl

/-- On a node, a setting sets what its reader reads. -/
theorem on_setting (name : String) (r : Path → Reader α) (set : α → σ → σ) (outer : Path)
    (v : Node) (path : Path) :
    ((Field.setting name r set).read outer).on v path = ((r outer).on v path).map set := by
  show ((r outer _ path v.items).map _).map _ = ((r outer _ path v.items).map _).map _
  cases r outer ⟨[], [], none, false⟩ path v.items <;> rfl

/-- A setting that was read comes from a value that was read. -/
theorem exists_of_on_setting {name : String} {r : Path → Reader α} {set : α → σ → σ} {outer : Path}
    {v : Node} {path : Path} {u : σ → σ}
    (h : ((Field.setting name r set).read outer).on v path = .ok u) :
    ∃ x, (r outer).on v path = .ok x ∧ u = set x := by
  rw [on_setting] at h
  rcases hr : (r outer).on v path with issue | x
  · rw [hr] at h
    cases h
  · rw [hr] at h
    exact ⟨x, rfl, (Except.ok.inj h).symm⟩

/-! ### Sequences -/

/-- The elements of a sequence from the index `n` on. -/
def elementsOf (element : Reader α) (path : Path) : Nat → List Node → Except Issue (List α)
  | _, [] => .ok []
  | n, v :: vs => do
    let a ← element.on v (.item path n)
    let as ← elementsOf element path (n + 1) vs
    return a :: as

/-- The next element is read from the node in front. -/
theorem readElements_node (element : Reader α) (d : Document) (path : Path) (fuel n : Nat)
    (v : Node) (rest : List Item) :
    readElements element d path (fuel + 1) n (v.items ++ rest) = (do
      let (a, rest) ← element d (.item path n) (v.items ++ rest)
      let (as, rest) ← readElements element d path fuel (n + 1) rest
      return (a :: as, rest)) := by
  cases v <;> rfl

/-- By induction over the elements: the items of a sequence are read as its elements, and what
follows stays. -/
theorem readElements_items {element : Reader α} (h : element.Local) (d : Document) (path : Path)
    (rest : List Item) (vs : List Node) {fuel : Nat} (hfuel : vs.length < fuel) (n : Nat) :
    readElements element d path fuel n (Node.itemsOfAll vs ++ .sequenceEnd :: rest) =
      (elementsOf element path n vs).map (·, rest) := by
  induction vs generalizing fuel n with
  | nil =>
    obtain ⟨fuel, rfl⟩ := Nat.exists_eq_add_one.2 hfuel
    rfl
  | cons v vs ih =>
    obtain ⟨fuel, rfl⟩ := Nat.exists_eq_add_one.2 (Nat.zero_lt_of_lt hfuel)
    rw [Node.itemsOfAll, List.append_assoc, readElements_node, h, elementsOf]
    rcases element.on v (.item path n) with issue | a
    · rfl
    · show (readElements element d path fuel (n + 1) _ >>= _) = _
      rw [ih (Nat.lt_of_succ_lt_succ hfuel)]
      rcases elementsOf element path (n + 1) vs with issue | as <;> rfl

/-- A sequence is read from its node alone. -/
theorem local_readSequence {element : Reader α} (h : element.Local) :
    (readSequence element).Local := by
  refine Reader.local_of_forall fun v path ↦ ?_
  cases v with
  | scalar s =>
    refine ⟨if (Item.scalar s).isBare then .ok [] else
      .error ((Item.scalar s).misfit path "a sequence"), fun d rest ↦ ?_⟩
    show (if _ then _ else _) = _
    split_ifs <;> rfl
  | sequence tag vs =>
    refine ⟨elementsOf element path 0 vs, fun d rest ↦ ?_⟩
    have hfuel : vs.length < (Node.itemsOfAll vs ++ .sequenceEnd :: rest).length + 1 := by
      have hle := Node.length_le_itemsOfAll vs
      rw [List.length_append]
      omega
    rw [Node.items, List.cons_append, List.append_assoc]
    exact readElements_items h d path rest vs hfuel 0
  | mapping tag es => exact ⟨.error ((Item.mappingStart tag).misfit path "a sequence"),
      fun d rest ↦ rfl⟩

/-! ### Records -/

/-- The name of an entry's field and how its value updates a record, after the keys `seen`. -/
def readEntry (fields : List (Field σ)) (path : Path) (seen : List String) (e : Node × Node) :
    Except Issue (String × (σ → σ)) := do
  let name ← (readText "field identifier").on e.1 path
  match fields.find? (·.name == name) with
  | none => throw (.misfit path (.unknownField name (fields.map (·.name))))
  | some f =>
    if seen.contains name then throw (.misfit path (.duplicateField name))
    let update ← (f.read path).on e.2 (.field path name)
    return (name, update)

/-- Fills in a record from the entries of a mapping, after the keys `seen`. -/
def fill (fields : List (Field σ)) (path : Path) :
    List String → σ → List (Node × Node) → Except Issue σ
  | _, acc, [] => .ok acc
  | seen, acc, e :: es => do
    let (name, update) ← readEntry fields path seen e
    fill fields path (name :: seen) (update acc) es

/-- All fields of a record have local readers. -/
def LocalFields (fields : List (Field σ)) : Prop :=
  ∀ f ∈ fields, ∀ outer, (f.read outer).Local

/-- The next field is read from the entry in front. -/
theorem readFields_entry {fields : List (Field σ)} (h : LocalFields fields) (d : Document)
    (path : Path) (fuel : Nat) (seen : List String) (acc : σ) (e : Node × Node)
    (rest : List Item) :
    readFields fields d path (fuel + 1) seen acc (Node.itemsOfEntry e ++ rest) = (do
      let (name, update) ← readEntry fields path seen e
      readFields fields d path fuel (name :: seen) (update acc) rest) := by
  obtain ⟨key, value⟩ := e
  rw [Node.itemsOfEntry, List.append_assoc]
  cases key with
  | sequence tag vs => rfl
  | mapping tag es => rfl
  | scalar s =>
    have hname : (readText "field identifier").on (.scalar s) path = .ok s.text := rfl
    have hread : readText "field identifier" d path
        ((Node.scalar s).items ++ (value.items ++ rest)) = .ok (s.text, value.items ++ rest) := rfl
    rw [readFields.eq_def, readEntry, hname]
    simp only [Node.items, List.cons_append, List.nil_append] at hread ⊢
    simp only [hread, ok_bind]
    rcases hfind : fields.find? (·.name == s.text) with - | f
    · simp only [hfind]
      rfl
    · simp only [hfind]
      rw [h f (List.mem_of_find?_eq_some hfind)]
      show _ = ((if _ then _ else ((f.read path).on value (.field path s.text) >>= _)) >>= _)
      split_ifs
      · rfl
      · show (((f.read path).on value (.field path s.text)).map _ >>= _) = _
        rcases (f.read path).on value (.field path s.text) with issue | update <;> rfl

/-- By induction over the entries: the items of a mapping are read as its entries are filled in. -/
theorem readFields_items {fields : List (Field σ)} (h : LocalFields fields) (d : Document)
    (path : Path) (rest : List Item) (es : List (Node × Node)) {fuel : Nat}
    (hfuel : es.length < fuel) (seen : List String) (acc : σ) :
    readFields fields d path fuel seen acc (Node.itemsOfEntries es ++ .mappingEnd :: rest) =
      (fill fields path seen acc es).map (·, rest) := by
  induction es generalizing fuel seen acc with
  | nil =>
    obtain ⟨fuel, rfl⟩ := Nat.exists_eq_add_one.2 hfuel
    rfl
  | cons e es ih =>
    obtain ⟨fuel, rfl⟩ := Nat.exists_eq_add_one.2 (Nat.zero_lt_of_lt hfuel)
    rw [Node.itemsOfEntries, List.append_assoc, readFields_entry h, fill]
    rcases readEntry fields path seen e with issue | ⟨name, update⟩
    · rfl
    · exact ih (Nat.lt_of_succ_lt_succ hfuel) (name :: seen) (update acc)

/-- A record is what the entries of its mapping fill in. -/
theorem readRecord_mapping {fields : List (Field σ)} (h : LocalFields fields) (expected : String)
    (blank : σ) (d : Document) (path : Path) (tag : Option Tag) (es : List (Node × Node))
    (rest : List Item) :
    readRecord expected fields blank d path ((Node.mapping tag es).items ++ rest) =
      (fill fields path [] blank es).map (·, rest) := by
  have hfuel : es.length < (Node.itemsOfEntries es ++ .mappingEnd :: rest).length + 1 := by
    have hle := Node.length_le_itemsOfEntries es
    rw [List.length_append]
    omega
  rw [Node.items, List.cons_append, List.append_assoc]
  exact readFields_items h d path rest es hfuel [] blank

/-- A record is read from its node alone. -/
theorem local_readRecord {fields : List (Field σ)} (h : LocalFields fields) (expected : String)
    (blank : σ) : (readRecord expected fields blank).Local := by
  refine Reader.local_of_forall fun v path ↦ ?_
  cases v with
  | scalar s =>
    refine ⟨if (Item.scalar s).isBare then .ok blank else
      .error ((Item.scalar s).misfit path expected), fun d rest ↦ ?_⟩
    show (if _ then _ else _) = _
    split_ifs <;> rfl
  | sequence tag vs => exact ⟨.error ((Item.sequenceStart tag).misfit path expected),
      fun d rest ↦ rfl⟩
  | mapping tag es => exact ⟨fill fields path [] blank es, fun d rest ↦
      readRecord_mapping h expected blank d path tag es rest⟩

/-- A record is filled in from the entries of its mapping. -/
theorem on_readRecord {fields : List (Field σ)} (h : LocalFields fields) (expected : String)
    (blank : σ) (tag : Option Tag) (es : List (Node × Node)) (path : Path) :
    (readRecord expected fields blank).on (.mapping tag es) path = fill fields path [] blank es :=
  Reader.on_eq fun d rest ↦ readRecord_mapping h expected blank d path tag es rest

/-! ### What entries give -/

/-- The name that the key of an entry spells, and its value. -/
def named (e : Node × Node) : Option String × Node := (e.1.name?, e.2)

/-- A value under a name gives an update of the record: the name is that of a field, and the field
reads the value as that update. -/
def Gives (fields : List (Field σ)) (path : Path) (e : Option String × Node)
    (u : String × (σ → σ)) : Prop :=
  e.1 = some u.1 ∧ ∃ f, fields.find? (·.name == u.1) = some f ∧
    (f.read path).on e.2 (.field path u.1) = .ok u.2

/-- An entry for a setting gives what its reader reads. -/
theorem gives_setting {fields : List (Field σ)} {path : Path} {name : String} {r : Path → Reader α}
    {set : α → σ → σ} {v : Node} {x : α}
    (hfind : fields.find? (·.name == name) = some (.setting name r set))
    (h : (r path).on v (.field path name) = .ok x) :
    Gives fields path (some name, v) (name, set x) := by
  refine ⟨rfl, _, hfind, ?_⟩
  rw [on_setting, h]
  rfl

variable {fields : List (Field σ)} {path : Path} {seen : List String} {acc r : σ}
  {es es' : List (Node × Node)} {e : Node × Node} {u : String × (σ → σ)}

/-- An entry with a new name is read by the field of this name. -/
theorem readEntry_of_find {name : String} {f : Field σ} (hname : e.1.name? = some name)
    (hfind : fields.find? (·.name == name) = some f) (hseen : name ∉ seen) :
    readEntry fields path seen e = ((f.read path).on e.2 (.field path name)).map (name, ·) := by
  obtain ⟨key, value⟩ := e
  cases key with
  | sequence tag vs => cases hname
  | mapping tag es => cases hname
  | scalar s =>
    obtain rfl : s.text = name := Option.some.inj hname
    have hread : (readText "field identifier").on (.scalar s) path = .ok s.text := rfl
    simp only [readEntry, hread, ok_bind, hfind]
    rw [if_neg (by simpa using hseen)]
    cases (f.read path).on value (.field path s.text) <;> rfl

/-- An entry is accepted exactly if it gives an update and its name is new. -/
theorem readEntry_eq_ok_iff :
    readEntry fields path seen e = .ok u ↔ Gives fields path (named e) u ∧ u.1 ∉ seen := by
  constructor
  · intro h
    obtain ⟨key, value⟩ := e
    cases key with
    | sequence tag vs => cases h
    | mapping tag es => cases h
    | scalar s =>
      have hname : (readText "field identifier").on (.scalar s) path = .ok s.text := rfl
      rw [readEntry, hname, ok_bind] at h
      rcases hfind : fields.find? (·.name == s.text) with - | f
      · simp only [hfind] at h
        cases h
      · simp only [hfind] at h
        split_ifs at h with hseen
        · cases h
        · rcases hon : (f.read path).on value (.field path s.text) with issue | update
          · rw [hon] at h
            cases h
          · rw [hon] at h
            cases h
            exact ⟨⟨rfl, f, hfind, hon⟩, by simpa using hseen⟩
  · rintro ⟨⟨hkey, f, hfind, hon⟩, hseen⟩
    rw [readEntry_of_find hkey hfind hseen]
    exact congrArg (Except.map (u.1, ·)) hon

/-- An entry that is accepted is applied, and its name is taken from then on. -/
theorem fill_cons_of_ok (h : readEntry fields path seen e = .ok u) :
    fill fields path seen acc (e :: es) = fill fields path (u.1 :: seen) (u.2 acc) es := by
  rw [fill, h]
  rfl

/-- The first entry that is not accepted ends it. -/
theorem fill_cons_of_error {issue : Issue} (h : readEntry fields path seen e = .error issue) :
    fill fields path seen acc (e :: es) = .error issue := by
  rw [fill, h]
  rfl

/-- One entry of a record, for a field that sets a part of it. -/
theorem fill_cons_of_setting {name : String} {r : Path → Reader α} {set : α → σ → σ}
    (hname : e.1.name? = some name)
    (hfind : fields.find? (·.name == name) = some (.setting name r set)) (hseen : name ∉ seen) :
    fill fields path seen acc (e :: es) = (do
      let x ← (r path).on e.2 (.field path name)
      fill fields path (name :: seen) (set x acc) es) := by
  rw [fill, readEntry_of_find hname hfind hseen, on_setting]
  cases (r path).on e.2 (.field path name) <;> rfl

/-- **Reading a record**: each entry gives an update, no two under the same name. -/
theorem fill_eq_ok_iff : fill fields path seen acc es = .ok r ↔
    ∃ us, List.Forall₂ (Gives fields path) (es.map named) us ∧ (us.map Prod.fst).Nodup ∧
      (∀ u ∈ us, u.1 ∉ seen) ∧ us.foldl (fun acc u ↦ u.2 acc) acc = r := by
  induction es generalizing seen acc with
  | nil =>
    constructor
    · intro h
      exact ⟨[], .nil, List.nodup_nil, nofun, Except.ok.inj h⟩
    · rintro ⟨us, hgives, -, -, rfl⟩
      cases hgives
      rfl
  | cons e es ih =>
    constructor
    · intro h
      rcases hentry : readEntry fields path seen e with issue | u
      · rw [fill_cons_of_error hentry] at h
        cases h
      · rw [fill_cons_of_ok hentry] at h
        obtain ⟨us, hgives, hnodup, hseen, hfold⟩ := ih.1 h
        obtain ⟨hu, hnew⟩ := readEntry_eq_ok_iff.1 hentry
        refine ⟨u :: us, .cons hu hgives, ?_, ?_, hfold⟩
        · refine List.nodup_cons.2 ⟨fun hmem ↦ ?_, hnodup⟩
          obtain ⟨u', hu', heq⟩ := List.mem_map.1 hmem
          exact hseen u' hu' (heq ▸ List.mem_cons_self)
        · exact List.forall_mem_cons.2
            ⟨hnew, fun u' hu' hmem ↦ hseen u' hu' (List.mem_cons_of_mem _ hmem)⟩
    · rintro ⟨us, hgives, hnodup, hseen, hfold⟩
      cases hgives with
      | @cons _ u _ us hu hgives =>
        obtain ⟨hnew, hseen⟩ := List.forall_mem_cons.1 hseen
        obtain ⟨hdistinct, hnodup⟩ := List.nodup_cons.1 hnodup
        rw [fill_cons_of_ok (readEntry_eq_ok_iff.2 ⟨hu, hnew⟩)]
        refine ih.2 ⟨us, hgives, hnodup, fun u' hu' hmem ↦ ?_, hfold⟩
        rcases List.mem_cons.1 hmem with heq | hmem
        · exact hdistinct (List.mem_map.2 ⟨u', hu', heq⟩)
        · exact hseen u' hu' hmem

/-- Updates have the names of their entries. -/
theorem map_fst_of_gives {named : List (Option String × Node)} {us : List (String × (σ → σ))}
    (h : List.Forall₂ (Gives fields path) named us) :
    named.map Prod.fst = (us.map Prod.fst).map some := by
  induction h with
  | nil => rfl
  | cons hu _ ih => exact congrArg₂ List.cons hu.1 ih

/-- The keys of a mapping that was read are different, and each entry gives an update. -/
theorem keys_of_fill (h : fill fields path seen acc es = .ok r) :
    (es.map (·.1.name?)).Nodup ∧ ∀ e ∈ es, ∃ u, Gives fields path (named e) u := by
  obtain ⟨us, hgives, hnodup, -, -⟩ := fill_eq_ok_iff.1 h
  constructor
  · have hnames := map_fst_of_gives hgives
    rw [List.map_map] at hnames
    exact (congrArg List.Nodup hnames).mpr (hnodup.map (Option.some_injective _))
  · intro e he
    obtain ⟨u, -, hu⟩ := exists_rel_of_mem hgives (List.mem_map_of_mem he)
    exact ⟨u, hu⟩

/-- A mapping with different keys, each of whose entries gives an update, is read. -/
theorem exists_fill (hnodup : (es.map (·.1.name?)).Nodup)
    (hgives : ∀ e ∈ es, ∃ u, Gives fields path (named e) u) (acc : σ) :
    ∃ r, fill fields path [] acc es = .ok r := by
  have hnamed : ∀ x ∈ es.map named, ∃ u, Gives fields path x u := List.forall_mem_map.2 hgives
  obtain ⟨us, hus⟩ := exists_forall₂ hnamed
  have hnames := map_fst_of_gives hus
  rw [List.map_map] at hnames
  have hdistinct : (us.map Prod.fst).Nodup := .of_map some (hnames ▸ hnodup)
  exact ⟨_, fill_eq_ok_iff.2 ⟨us, hus, hdistinct, fun u _ ↦ List.not_mem_nil, rfl⟩⟩

/-! ### Parts of a record -/

/-- A field leaves a part of the record as it is. -/
def Field.Leaves (f : Field σ) (get : σ → α) : Prop :=
  ∀ outer v path u, (f.read outer).on v path = .ok u → ∀ a, get (u a) = get a

/-- A setting leaves alone what it does not set. -/
theorem leaves_setting {β : Type} {name : String} {r : Path → Reader β} {set : β → σ → σ}
    {get : σ → α} (h : ∀ x a, get (set x a) = get a) : (Field.setting name r set).Leaves get := by
  intro outer v path u hu a
  obtain ⟨x, -, rfl⟩ := exists_of_on_setting hu
  exact h x a

/-- A part of a record that one field sets and the others leave. -/
structure Part (fields : List (Field σ)) (name : String) (r : Path → Reader α) (set : α → σ → σ)
    (get : σ → α) : Prop where
  find_eq : fields.find? (·.name == name) = some (.setting name r set)
  get_set : ∀ x a, get (set x a) = x
  set_get : ∀ a, set (get a) a = a
  leaves : ∀ f ∈ fields, f.name ≠ name → f.Leaves get

section

variable {name : String} {r : Path → Reader α} {set : α → σ → σ} {get : σ → α}

/-- **What a record has in a part**: what the field of the part reads of the value under its name,
or, if there is none, what was there before. -/
theorem Part.get_of_fill (hpart : Part fields name r set get) {b : σ}
    (h : fill fields path seen acc es = .ok b) :
    (∃ e ∈ es, e.1.name? = some name ∧ (r path).on e.2 (.field path name) = .ok (get b)) ∨
      (∀ e ∈ es, e.1.name? ≠ some name) ∧ get b = get acc := by
  induction es generalizing seen acc with
  | nil =>
    obtain rfl := Except.ok.inj h
    exact .inr ⟨List.forall_mem_nil _, rfl⟩
  | cons e es ih =>
    rcases hentry : readEntry fields path seen e with issue | u
    · rw [fill_cons_of_error hentry] at h
      cases h
    rw [fill_cons_of_ok hentry] at h
    obtain ⟨⟨hname, f, hf, hon⟩, -⟩ := readEntry_eq_ok_iff.1 hentry
    rcases ih h with ⟨e', he', hgiven⟩ | ⟨hnone, hget⟩
    · exact .inl ⟨e', List.mem_cons_of_mem _ he', hgiven⟩
    -- nothing after the entry sets the part, so the entry decides
    by_cases heq : u.1 = name
    · rw [heq] at hf hon hname
      obtain rfl := Option.some.inj (hpart.find_eq.symm.trans hf)
      obtain ⟨x, hx, hu⟩ := exists_of_on_setting hon
      refine .inl ⟨e, List.mem_cons_self, hname, ?_⟩
      rw [hget, hu, hpart.get_set]
      exact hx
    · have hne : f.name ≠ name := by
        have hfu : f.name = u.1 := by simpa using List.find?_some hf
        exact hfu ▸ heq
      refine .inr ⟨List.forall_mem_cons.2 ⟨fun hkey ↦ heq ?_, hnone⟩, ?_⟩
      · exact Option.some.inj (hname.symm.trans hkey)
      · rw [hget, hpart.leaves f (List.mem_of_find?_eq_some hf) hne _ _ _ _ hon]

end

/-! ### Entries that change nothing -/

/-- What an entry comes to depends on whether its own name was seen. -/
theorem readEntry_congr_seen {seen' : List String}
    (h : ∀ name, e.1.name? = some name → (name ∈ seen ↔ name ∈ seen')) :
    readEntry fields path seen e = readEntry fields path seen' e := by
  obtain ⟨key, value⟩ := e
  cases key with
  | sequence tag vs => rfl
  | mapping tag es => rfl
  | scalar s =>
    have hname : (readText "field identifier").on (.scalar s) path = .ok s.text := rfl
    have hseen : seen.contains s.text = seen'.contains s.text := by
      rw [Bool.eq_iff_iff, List.contains_iff_mem, List.contains_iff_mem]
      exact h s.text rfl
    simp only [readEntry, hname, ok_bind, hseen]

/-- What an entry comes to depends on what the field of its name makes of the value. -/
theorem readEntry_congr_value {key v v' : Node} (h : ∀ name f, key.name? = some name →
      fields.find? (·.name == name) = some f →
      (f.read path).on v (.field path name) = (f.read path).on v' (.field path name)) :
    readEntry fields path seen (key, v) = readEntry fields path seen (key, v') := by
  cases key with
  | sequence tag vs => rfl
  | mapping tag es => rfl
  | scalar s =>
    have hname : (readText "field identifier").on (.scalar s) path = .ok s.text := rfl
    simp only [readEntry, hname, ok_bind]
    rcases hfind : fields.find? (·.name == s.text) with - | f
    · simp only [hfind]
    · simp only [hfind, h s.text f rfl hfind]

/-- Of the names that were seen, only those matter that come again. -/
theorem fill_congr_seen {seen' : List String}
    (h : ∀ e ∈ es, ∀ name, e.1.name? = some name → (name ∈ seen ↔ name ∈ seen')) :
    fill fields path seen acc es = fill fields path seen' acc es := by
  induction es generalizing seen seen' acc with
  | nil => rfl
  | cons e es ih =>
    obtain ⟨he, hes⟩ := List.forall_mem_cons.1 h
    rw [fill, fill, readEntry_congr_seen he]
    rcases readEntry fields path seen' e with issue | u
    · rfl
    · refine ih fun e' he' name' hname' ↦ ?_
      rw [List.mem_cons, List.mem_cons, hes e' he' name' hname']

/-- Entries can be filled in in two parts, if the names of the first are remembered. -/
theorem fill_append : fill fields path seen acc (es ++ es') = (do
    let acc ← fill fields path seen acc es
    fill fields path ((es.filterMap (·.1.name?)).reverse ++ seen) acc es') := by
  induction es generalizing seen acc with
  | nil => rfl
  | cons e es ih =>
    rcases hentry : readEntry fields path seen e with issue | u
    · rw [List.cons_append, fill_cons_of_error hentry, fill_cons_of_error hentry, error_bind]
    · have hnames : (e :: es).filterMap (·.1.name?) = u.1 :: es.filterMap (·.1.name?) :=
        List.filterMap_cons_some (readEntry_eq_ok_iff.1 hentry).1.1
      rw [List.cons_append, fill_cons_of_ok hentry, fill_cons_of_ok hentry, ih, hnames,
        List.reverse_cons, List.append_assoc, List.singleton_append]

/-- **A part that is given what it has anyway** may as well be left out. -/
theorem Part.fill_of_default {name : String} {r : Path → Reader α} {set : α → σ → σ} {get : σ → α}
    (hpart : Part fields name r set get) (hkey : e.1.name? = some name)
    (hon : (r path).on e.2 (.field path name) = .ok (get acc))
    (hnew : ∀ e' ∈ es ++ es', e'.1.name? ≠ some name) :
    fill fields path [] acc (es ++ e :: es') = fill fields path [] acc (es ++ es') := by
  obtain ⟨hbefore, hafter⟩ := List.forall_mem_append.1 hnew
  rw [fill_append, fill_append]
  rcases hfill : fill fields path [] acc es with issue | b
  · rfl
  · have hget : get b = get acc := by
      rcases hpart.get_of_fill hfill with ⟨e', he', hname, -⟩ | ⟨-, hget⟩
      · exact absurd hname (hbefore e' he')
      · exact hget
    have hseen : name ∉ (es.filterMap (·.1.name?)).reverse ++ [] := by
      rw [List.append_nil, List.mem_reverse, List.mem_filterMap]
      rintro ⟨e', he', hname⟩
      exact hbefore e' he' hname
    rw [ok_bind, ok_bind, fill_cons_of_setting hkey hpart.find_eq hseen, hon, ok_bind, ← hget,
      hpart.set_get]
    refine fill_congr_seen fun e' he' name' hname ↦ ?_
    have hne : name' ≠ name := by
      rintro rfl
      exact hafter e' he' hname
    rw [List.mem_cons, or_iff_right hne]

end Crossing.Yaml
