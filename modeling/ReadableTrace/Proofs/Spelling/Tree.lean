import ReadableTrace.Proofs.Spelling.Composition
import ReadableTrace.Proofs.Text.Brackets

/-!
# Reading a spelling back

Of a spelled type one can tell how it is put together: the names in it, how many dimensions its
arrays have, what is nullable, and which arguments belong to which generic type. `Tree` holds just
that, and `HasTree` says which tree a type has.

* A text has one tree, if the names in it can be told from the marks around them
  (`Tree.eq_of_text_eq`). The last character tells which kind of tree it is (`Tree.lastMark`). The
  parts of an array and of a generic type are found by their brackets, and arguments by the commas
  outside of all brackets.
* A type has at most one tree (`HasTree.unique`), and it has one exactly if it is spelled, as the
  text of the tree (`exists_tree_of_along_ok`, `HasTree.ofType_eq`).
* So types that are spelled alike have the same tree (`ofType_readable`).
-/

namespace ReadableTrace.Spelling

open Log Outcome Text

/-! ## Trees -/

/-- How a spelling is put together. -/
inductive Tree
  /-- A name as it is spelled. -/
  | leaf (name : String)
  | array (commas : Nat) (element : Tree)
  | nullable (underlying : Tree)
  | generic (head : Tree) (arguments : List Tree)

namespace Tree

/-- The text of a tree. -/
def text : Tree → String
  | leaf name => name
  | array commas e => e.text ++ "[" ++ String.ofList (List.replicate commas ',') ++ "]"
  | nullable u => u.text ++ "?"
  | generic head args => head.text ++ "<" ++ ", ".intercalate (args.map text) ++ ">"

/-- The names in a tree, from left to right. -/
def leaves : Tree → List String
  | leaf name => [name]
  | array _ e => e.leaves
  | nullable u => u.leaves
  | generic head args => head.leaves ++ args.flatMap leaves

/-- The characters that put a spelling together. -/
def marks : List Char := ['<', '>', '[', ']', ',', '?']

/-- The names in the tree are not empty and can be told from what is around them. -/
def Clear (t : Tree) : Prop := ∀ name ∈ t.leaves, name ≠ "" ∧ ∀ d ∈ name.toList, d ∉ marks

/-- Induction on trees, with the arguments of a generic type taken together. -/
@[elab_as_elim]
theorem induction {motive : Tree → Prop} (leaf : ∀ name, motive (leaf name))
    (array : ∀ commas e, motive e → motive (array commas e))
    (nullable : ∀ u, motive u → motive (nullable u))
    (generic : ∀ head args, motive head → (∀ a ∈ args, motive a) → motive (generic head args))
    (t : Tree) : motive t :=
  @Tree.rec motive (fun args => ∀ a ∈ args, motive a) leaf array nullable generic
    (fun _ h => absurd h List.not_mem_nil)
    (fun _ _ hd tl => List.forall_mem_cons.2 ⟨hd, tl⟩) t

variable {t u : Tree} {name : String} {k : Nat} {args : List Tree}

theorem clear_array : (array k t).Clear ↔ t.Clear := by
  simp only [Clear, leaves]

theorem clear_nullable : (nullable t).Clear ↔ t.Clear := by
  simp only [Clear, leaves]

theorem clear_generic : (generic t args).Clear ↔ t.Clear ∧ ∀ a ∈ args, a.Clear := by
  simp only [Clear, leaves, List.mem_append, List.mem_flatMap]
  constructor
  · intro h
    exact ⟨fun n hn => h n (.inl hn), fun a ha n hn => h n (.inr ⟨a, ha, hn⟩)⟩
  · rintro ⟨h, ha⟩ n (hn | ⟨a, hm, hn⟩)
    · exact h n hn
    · exact ha a hm n hn

/-! ## The text of a tree -/

theorem toList_text_array : (array k t).text.toList =
    t.text.toList ++ '[' :: (List.replicate k ',' ++ [']']) := by
  simp [text]

theorem toList_text_nullable : (nullable t).text.toList = t.text.toList ++ ['?'] := by
  simp [text]

theorem toList_text_generic : (generic t args).text.toList =
    t.text.toList ++ '<' :: ([',', ' '].intercalate (args.map (·.text.toList)) ++ ['>']) := by
  simp [text, String.toList_intercalate, Function.comp_def]

theorem piece_leaf (h : (leaf name).Clear) : Piece name.toList := by
  obtain ⟨hn, hm⟩ := h name (by simp [leaves])
  refine .of_plain (by simpa using hn) (fun hc => hm _ hc (by decide)) fun d hd b hb => ?_
  have all : ∀ b ∈ brackets, b.1 ∈ marks ∧ b.2 ∈ marks := by decide
  exact ⟨fun he => hm d hd (he ▸ (all b hb).1), fun he => hm d hd (he ▸ (all b hb).2)⟩

theorem balanced_commas (k : Nat) : Balanced (List.replicate k ',') := by
  refine .of_plain fun d hd => ?_
  rw [List.eq_of_mem_replicate hd]
  decide

/-- The text of a tree can stand between commas. -/
theorem piece_text (h : t.Clear) : Piece t.text.toList := by
  induction t using Tree.induction with
  | leaf name =>
    rw [text]
    exact piece_leaf h
  | array k e ih =>
    rw [toList_text_array]
    have between := Piece.enclosed (b := ('[', ']')) (by decide) (balanced_commas k)
    exact (ih (clear_array.1 h)).append between
  | nullable u ih =>
    rw [toList_text_nullable]
    exact (ih (clear_nullable.1 h)).append (.of_plain (by simp) (by simp) (by simp [brackets]))
  | generic head args ih iha =>
    obtain ⟨hh, ha⟩ := clear_generic.1 h
    rw [toList_text_generic]
    refine (ih hh).append (.enclosed (b := ('<', '>')) (by decide) ?_)
    exact balanced_of_pieces (List.forall_mem_map.2 fun a hm => iha a hm (ha a hm))

/-- The mark with which the text of a tree ends. A name ends with no mark. -/
def lastMark : Tree → Option Char
  | leaf _ => none
  | array _ _ => some ']'
  | nullable _ => some '?'
  | generic _ _ => some '>'

theorem lastMark_eq (h : t.Clear) : t.lastMark = t.text.toList.getLast?.filter (· ∈ marks) := by
  cases t with
  | leaf name =>
    obtain ⟨-, hm⟩ := h name (by simp [leaves])
    refine (Option.filter_eq_none_iff.2 fun d hd => ?_).symm
    rw [text] at hd
    simpa using hm d (List.mem_of_getLast? hd)
  | array k e =>
    have last : (array k e).text.toList.getLast? = some ']' := by
      simp [toList_text_array, List.getLast?_cons, List.getLast?_append]
    rw [last]
    rfl
  | nullable u =>
    have last : (nullable u).text.toList.getLast? = some '?' := by simp [toList_text_nullable]
    rw [last]
    rfl
  | generic head args =>
    have last : (generic head args).text.toList.getLast? = some '>' := by
      simp [toList_text_generic, List.getLast?_cons, List.getLast?_append]
    rw [last]
    rfl

/-- Trees with the same texts are the same, if each of the first is told from its text. -/
theorem eq_of_map_text_eq {us : List Tree}
    (h : ∀ a ∈ args, ∀ u ∈ us, a.text.toList = u.text.toList → a = u)
    (he : args.map (·.text.toList) = us.map (·.text.toList)) : args = us := by
  induction args generalizing us with
  | nil => simpa using he
  | cons a args ih =>
    cases us with
    | nil => simp at he
    | cons u us =>
      obtain ⟨ha, he⟩ := List.cons.inj he
      rw [h a List.mem_cons_self u List.mem_cons_self ha,
        ih (fun a hm u hu => h a (List.mem_cons_of_mem _ hm) u (List.mem_cons_of_mem _ hu)) he]

theorem lastMark_congr (ht : t.Clear) (hu : u.Clear) (h : t.text.toList = u.text.toList) :
    t.lastMark = u.lastMark := by
  rw [lastMark_eq ht, lastMark_eq hu, h]

/-- **A text has one tree.** -/
theorem eq_of_text_eq (ht : t.Clear) (hu : u.Clear) (h : t.text.toList = u.text.toList) :
    t = u := by
  induction t using Tree.induction generalizing u with
  | leaf name =>
    cases u with
    | leaf name' => simpa only [text, leaf.injEq, String.toList_inj] using h
    | _ => cases lastMark_congr ht hu h
  | array k e ih =>
    cases u with
    | array k' e' =>
      rw [clear_array] at ht hu
      rw [toList_text_array, toList_text_array] at h
      obtain ⟨he, hk⟩ := eq_of_append_enclosed_eq (b := ('[', ']')) (by decide)
        (piece_text ht).balanced (piece_text hu).balanced (balanced_commas k) (balanced_commas k') h
      rw [ih ht hu he, (List.replicate_inj.1 hk).1]
    | _ => cases lastMark_congr ht hu h
  | nullable v ih =>
    cases u with
    | nullable v' =>
      rw [clear_nullable] at ht hu
      rw [toList_text_nullable, toList_text_nullable] at h
      rw [ih ht hu (List.append_cancel_right h)]
    | _ => cases lastMark_congr ht hu h
  | generic head args ih iha =>
    cases u with
    | generic head' args' =>
      obtain ⟨hh, ha⟩ := clear_generic.1 ht
      obtain ⟨hh', ha'⟩ := clear_generic.1 hu
      have pieces := List.forall_mem_map.2 fun a hm => piece_text (ha a hm)
      have pieces' := List.forall_mem_map.2 fun a hm => piece_text (ha' a hm)
      rw [toList_text_generic, toList_text_generic] at h
      obtain ⟨he, hl⟩ := eq_of_append_enclosed_eq (b := ('<', '>')) (by decide)
        (piece_text hh).balanced (piece_text hh').balanced (balanced_of_pieces pieces)
        (balanced_of_pieces pieces') h
      have texts := eq_of_intercalate_eq pieces pieces' hl
      rw [ih hh hh' he,
        eq_of_map_text_eq (fun a hm b hb => iha a hm (ha a hm) (ha' b hb)) texts]
    | _ => cases lastMark_congr ht hu h

end Tree

/-! ## The tree of a type -/

/-- The tree of a type. A type of references has the tree of what it refers to, and so has the head
of a generic type whose definition is one; any other definition is a leaf. The arguments of a
generic type and their trees are paired by position. -/
inductive HasTree (c : Catalog) (lead : String) : TypeRef → Tree → Prop
  | plain {r t name} : c.type? r = some t → t.shape = .plain → NameSpelling lead t name →
    HasTree c lead r (.leaf name)
  | byRef {r t a x} : c.type? r = some t → t.shape = .byRef a → HasTree c lead a x →
    HasTree c lead r x
  | array {r t a n x} : c.type? r = some t → t.shape = .array a n → HasTree c lead a x →
    HasTree c lead r (.array (max n.toNat 1 - 1) x)
  | nullable {r t a x} : c.type? r = some t → t.shape = .nullable a → HasTree c lead a x →
    HasTree c lead r (.nullable x)
  | generic {r t d args u name xs} : c.type? r = some t → t.shape = .generic d args →
    d.elim (some t) c.type? = some u → (∀ a, u.shape ≠ .byRef a) → NameSpelling lead u name →
    args.length = xs.length → (∀ {a x}, (a, x) ∈ args.zip xs → HasTree c lead a x) →
    HasTree c lead r (.generic (.leaf name) xs)
  | headed {r t d args u a x xs} : c.type? r = some t → t.shape = .generic d args →
    d.elim (some t) c.type? = some u → u.shape = .byRef a → HasTree c lead a x →
    args.length = xs.length → (∀ {a x}, (a, x) ∈ args.zip xs → HasTree c lead a x) →
    HasTree c lead r (.generic x xs)

variable {c : Catalog} {lead s : String} {path : List TypeRef} {r a : TypeRef} {t u : TypeEntry}
  {x y : Tree}

theorem NameSpelling.unique {name name' : String} (h : NameSpelling lead t name)
    (h' : NameSpelling lead t name') : name = name' := by
  rw [← outcome_ofNames_eq_ok_iff] at h h'
  exact Except.ok.inj (h.symm.trans h')

/-- What is related to the members of a list is determined if it is so for each of them. -/
theorem eq_of_forall₂_unique {α β : Type} {P : α → β → Prop} {as : List α} {xs ys : List β}
    (h : List.Forall₂ (fun a x => ∀ {y}, P a y → x = y) as xs) (h' : List.Forall₂ P as ys) :
    xs = ys := by
  induction h generalizing ys with
  | nil => rw [List.forall₂_nil_left_iff.1 h']
  | cons hx _ ih =>
    obtain ⟨y, ys, hy, hys, rfl⟩ := List.forall₂_cons_left_iff.1 h'
    rw [hx hy, ih hys]

/-- A type has at most one tree. -/
theorem HasTree.unique (hx : HasTree c lead r x) (hy : HasTree c lead r y) : x = y := by
  induction hx generalizing y with
  | plain hr hs hn =>
    cases hy with
    | plain hr' hs' hn' =>
      obtain rfl := Option.some.inj (hr.symm.trans hr')
      rw [hn.unique hn']
    | _ => grind
  | byRef hr hs _ ih =>
    cases hy with
    | byRef hr' hs' hy' =>
      obtain rfl := Option.some.inj (hr.symm.trans hr')
      obtain rfl := Shape.byRef.inj (hs.symm.trans hs')
      exact ih hy'
    | _ => grind
  | array hr hs _ ih =>
    cases hy with
    | array hr' hs' hy' =>
      obtain rfl := Option.some.inj (hr.symm.trans hr')
      obtain ⟨rfl, rfl⟩ := Shape.array.inj (hs.symm.trans hs')
      rw [ih hy']
    | _ => grind
  | nullable hr hs _ ih =>
    cases hy with
    | nullable hr' hs' hy' =>
      obtain rfl := Option.some.inj (hr.symm.trans hr')
      obtain rfl := Shape.nullable.inj (hs.symm.trans hs')
      rw [ih hy']
    | _ => grind
  | generic hr hs hd hu hn hl _ ih =>
    cases hy with
    | generic hr' hs' hd' hu' hn' hl' hy' =>
      obtain rfl := Option.some.inj (hr.symm.trans hr')
      obtain ⟨rfl, rfl⟩ := Shape.generic.inj (hs.symm.trans hs')
      obtain rfl := Option.some.inj (hd.symm.trans hd')
      rw [hn.unique hn', eq_of_forall₂_unique (List.forall₂_iff_zip.2 ⟨hl, ih⟩)
        (List.forall₂_iff_zip.2 ⟨hl', hy'⟩)]
    | _ => grind
  | headed hr hs hd hu _ hl _ ih ihs =>
    cases hy with
    | headed hr' hs' hd' hu' hx' hl' hy' =>
      obtain rfl := Option.some.inj (hr.symm.trans hr')
      obtain ⟨rfl, rfl⟩ := Shape.generic.inj (hs.symm.trans hs')
      obtain rfl := Option.some.inj (hd.symm.trans hd')
      obtain rfl := Shape.byRef.inj (hu.symm.trans hu')
      rw [ih hx', eq_of_forall₂_unique (List.forall₂_iff_zip.2 ⟨hl, ihs⟩)
        (List.forall₂_iff_zip.2 ⟨hl', hy'⟩)]
    | _ => grind

theorem text_array_brackets {n : UInt32} :
    (Tree.array (max n.toNat 1 - 1) x).text = x.text ++ Catalog.brackets n := by
  have commas : max n.toNat 1 - 1 = n.toNat - 1 := by omega
  simp only [Tree.text, Catalog.brackets, commas, String.append_assoc]

theorem text_generic_angled {xs : List Tree} :
    (Tree.generic x xs).text = x.text ++ angled (xs.map Tree.text) := by
  simp only [Tree.text, angled, String.append_assoc]

/-- What is computed for the members of a list has trees if it has one for each of them. -/
theorem exists_trees {as : List TypeRef} {ss : List String}
    (h : List.Forall₂ (fun a s => ∃ x, HasTree c lead a x ∧ x.text = s) as ss) :
    ∃ xs, List.Forall₂ (HasTree c lead) as xs ∧ xs.map Tree.text = ss := by
  induction h with
  | nil => exact ⟨[], .nil, rfl⟩
  | cons hx _ ih =>
    obtain ⟨x, hx, rfl⟩ := hx
    obtain ⟨xs, hxs, rfl⟩ := ih
    exact ⟨x :: xs, .cons hx hxs, rfl⟩

/-- What is spelled has a tree. -/
theorem exists_tree_of_along_ok (h : (along c lead path r).outcome = .ok s) :
    ∃ x, HasTree c lead r x ∧ x.text = s := by
  induction path, r using Catalog.walk_induction (c := c) generalizing s with
  | onPath path r hp =>
    rw [outcome_along_of_mem hp] at h
    cases h
  | unknown path r hp hr =>
    rw [outcome_along_of_unknown hp hr] at h
    cases h
  | known path r t hp hr ih =>
    rw [outcome_along hp hr, ofEntry] at h
    split at h
    · rename_i hs
      exact ⟨_, .plain hr hs (outcome_ofNames_eq_ok_iff.1 h), by rw [Tree.text]⟩
    · rename_i a hs
      obtain ⟨x, hx, rfl⟩ := ih a h
      exact ⟨x, .byRef hr hs hx, rfl⟩
    · rename_i a hs
      obtain ⟨s', hs', rfl⟩ := map_eq_ok_iff.1 h
      obtain ⟨x, hx, rfl⟩ := ih a hs'
      exact ⟨_, .nullable hr hs hx, by rw [Tree.text]⟩
    · rename_i a n hs
      obtain ⟨s', hs', rfl⟩ := map_eq_ok_iff.1 h
      obtain ⟨x, hx, rfl⟩ := ih a hs'
      exact ⟨_, .array hr hs hx, text_array_brackets⟩
    · rename_i d args hs
      simp only [bind_eq_ok_iff, mapM_eq_ok_iff, pure_eq_ok_iff] at h
      obtain ⟨u, hd, n, hn, ss, hss, rfl⟩ := h
      obtain ⟨xs, hxs, rfl⟩ := exists_trees (hss.imp fun _ _ h => ih _ h)
      obtain ⟨hl, hxs⟩ := List.forall₂_iff_zip.1 hxs
      have hd := definitionOf_eq_ok_iff.1 hd
      by_cases hu : ∃ a, u.shape = .byRef a
      · obtain ⟨a, hu⟩ := hu
        rw [ofHead_of_byRef hu] at hn
        obtain ⟨x, hx, rfl⟩ := ih a hn
        exact ⟨_, .headed hr hs hd hu hx hl hxs, text_generic_angled⟩
      · rw [ofHead_of_ne_byRef (not_exists.1 hu), outcome_ofNames_eq_ok_iff] at hn
        refine ⟨_, .generic hr hs hd (not_exists.1 hu) hn hl hxs, ?_⟩
        rw [text_generic_angled, Tree.text]

theorem headSpelling_iff_of_byRef (hu : u.shape = .byRef a) :
    HeadSpelling c lead u s ↔ (ofType c lead a).outcome = .ok s := by
  rw [HeadSpelling, hu]

theorem headSpelling_of_ne_byRef (hu : ∀ a, u.shape ≠ .byRef a) (hn : NameSpelling lead u s) :
    HeadSpelling c lead u s := by
  rw [HeadSpelling]
  split
  · rename_i a ha
    exact absurd ha (hu a)
  · exact hn

/-- What has a tree is spelled as the text of the tree. -/
theorem HasTree.ofType_eq (h : HasTree c lead r x) : (ofType c lead r).outcome = .ok x.text := by
  have spelled {args : List TypeRef} {xs : List Tree} (hl : args.length = xs.length)
      (h : ∀ {a x}, (a, x) ∈ args.zip xs → (ofType c lead a).outcome = .ok x.text) :
      List.Forall₂ (fun a s => (ofType c lead a).outcome = .ok s) args (xs.map Tree.text) :=
    List.forall₂_map_right_iff.2 (List.forall₂_iff_zip.2 ⟨hl, h⟩)
  induction h with
  | plain hr hs hn =>
    rw [Tree.text]
    exact (ofType_iff_of_plain hr hs).2 hn
  | byRef hr hs _ ih => exact (ofType_iff_of_byRef hr hs).2 ih
  | array hr hs _ ih =>
    exact (ofType_iff_of_array hr hs).2 ⟨_, ih, text_array_brackets.symm⟩
  | nullable hr hs _ ih =>
    exact (ofType_iff_of_nullable hr hs).2 ⟨_, ih, by rw [Tree.text]⟩
  | @generic r t d args u name xs hr hs hd hu hn hl _ ih =>
    have head : HeadSpelling c lead u name := headSpelling_of_ne_byRef hu hn
    refine (ofType_iff_of_generic hr hs).2
      ⟨u, name, _, definitionOf_eq_ok_iff.2 hd, head, spelled hl ih, ?_⟩
    rw [text_generic_angled, Tree.text]
  | @headed r t d args u a x xs hr hs hd hu _ hl _ ih ihs =>
    have head : HeadSpelling c lead u x.text := (headSpelling_iff_of_byRef hu).2 ih
    exact (ofType_iff_of_generic hr hs).2
      ⟨u, x.text, _, definitionOf_eq_ok_iff.2 hd, head, spelled hl ihs, text_generic_angled.symm⟩

/-- **Spellings can be read back.** Two types that are spelled have one tree each, whose texts the
spellings are. Where the names in the trees are clear, the brackets in a spelling are closed in
turn, and types that are spelled alike have the same tree. -/
theorem ofType_readable {c : Catalog} {lead s s' : String} {a b : TypeRef}
    (ha : (ofType c lead a).outcome = .ok s) (hb : (ofType c lead b).outcome = .ok s') :
    ∃ x y, (∀ t, HasTree c lead a t ↔ t = x) ∧ (∀ t, HasTree c lead b t ↔ t = y) ∧
      x.text = s ∧ y.text = s' ∧ (x.Clear → Balanced s.toList) ∧
      (x.Clear → y.Clear → (s = s' ↔ x = y)) := by
  obtain ⟨x, hx, rfl⟩ := exists_tree_of_along_ok ha
  obtain ⟨y, hy, rfl⟩ := exists_tree_of_along_ok hb
  refine ⟨x, y, fun t => ⟨fun h => h.unique hx, fun h => h ▸ hx⟩,
    fun t => ⟨fun h => h.unique hy, fun h => h ▸ hy⟩, rfl, rfl,
    fun clear => (Tree.piece_text clear).balanced, fun clear clear' => ⟨fun h => ?_, fun h => ?_⟩⟩
  · exact Tree.eq_of_text_eq clear clear' (congrArg String.toList h)
  · rw [h]

/-! ## Two types that are spelled alike -/

/-- The open type of maps, here with a table of numbers and a nullable number for its parameters. -/
def mapType : TypeEntry :=
  { TypeEntry.ofName (some "App") "Map`2" with shape := .generic none [⟨1⟩, ⟨2⟩] }

/-- A catalog with the type of maps, and with a type that is built from the same arguments and whose
definition refers to a plain type of the same name. -/
def mapCatalog : Catalog where
  types := #[.ofName (some "System") "Int32",
    { TypeEntry.ofName (some "System") "Int32[,]" with shape := .array ⟨0⟩ 2 },
    { TypeEntry.ofName (some "System") "Nullable`1" with shape := .nullable ⟨0⟩ }, mapType,
    { TypeEntry.ofName (some "App") "Map`2&" with shape := .byRef ⟨5⟩ },
    .ofName (some "App") "Map`2",
    { TypeEntry.ofName (some "App") "Map`2" with shape := .generic (some ⟨4⟩) [⟨1⟩, ⟨2⟩] }]
  routines := #[]

/-- The tree of both. -/
def mapTree : Tree :=
  .generic (.leaf "App.Map") [.array 1 (.leaf "int"), .nullable (.leaf "int")]

theorem nameSpelling_of_map {t : TypeEntry} (h : t.fullName = some "App.Map`2") :
    NameSpelling "System." t "App.Map" := by
  have raw : decodable? "System." t = some "App.Map`2" := by
    simp only [decodable?, h]
    decide
  have taken : Name.decode "App.Map`2" = .ok ⟨"App.Map", none⟩ := by decide
  exact .decoded raw taken

theorem hasTree_mapCatalog :
    HasTree mapCatalog "System." ⟨3⟩ mapTree ∧ HasTree mapCatalog "System." ⟨6⟩ mapTree := by
  have number : HasTree mapCatalog "System." ⟨0⟩ (.leaf "int") :=
    .plain (t := .ofName (some "System") "Int32") rfl rfl (.keyword rfl (by decide))
  have table : HasTree mapCatalog "System." ⟨1⟩ (.array 1 (.leaf "int")) :=
    .array (n := 2) rfl rfl number
  have nullable : HasTree mapCatalog "System." ⟨2⟩ (.nullable (.leaf "int")) :=
    .nullable rfl rfl number
  obtain ⟨length, arguments⟩ := List.forall₂_iff_zip.1
    (List.Forall₂.cons table (.cons nullable .nil))
  have head : HasTree mapCatalog "System." ⟨5⟩ (.leaf "App.Map") :=
    .plain rfl rfl (nameSpelling_of_map (by decide))
  have referred : HasTree mapCatalog "System." ⟨4⟩ (.leaf "App.Map") := .byRef rfl rfl head
  have name : NameSpelling "System." mapType "App.Map" := nameSpelling_of_map (by decide)
  exact ⟨.generic (u := mapType) rfl rfl rfl nofun name length arguments,
    .headed rfl rfl rfl rfl head length arguments⟩

theorem ofType_mapCatalog :
    (ofType mapCatalog "System." ⟨3⟩).outcome = .ok "App.Map<int[,], int?>" ∧
      (ofType mapCatalog "System." ⟨6⟩).outcome = .ok "App.Map<int[,], int?>" ∧
      Balanced "App.Map<int[,], int?>".toList := by
  have text : mapTree.text = "App.Map<int[,], int?>" := by
    simp only [mapTree, Tree.text, List.map]
    decide
  have clear : mapTree.Clear := by
    simp [Tree.Clear, mapTree, Tree.leaves, Tree.marks]
  obtain ⟨hx, hy⟩ := hasTree_mapCatalog
  have ha := text ▸ hx.ofType_eq
  have hb := text ▸ hy.ofType_eq
  obtain ⟨x, y, tree, -, -, -, balanced, -⟩ := ofType_readable ha hb
  obtain rfl := (tree mapTree).1 hx
  exact ⟨ha, hb, balanced clear⟩

end ReadableTrace.Spelling
