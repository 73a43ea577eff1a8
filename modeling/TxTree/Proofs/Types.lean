import TxTree.Grammar.Types
import TxTree.Proofs.Reading

set_option relaxedAutoImplicit false
set_option autoImplicit false

/-!
# The syntax of types, and how they are read

Types as they are written down, with the lexemes that spell them, the trees that stand for them,
and how deep they nest; and that every type is read back from its lexemes with its tree, as long as
it does not nest too deeply. A type is followed by anything but an empty pair of brackets, which
would make an array of it.

## Main definitions

* `TxTree.TypePhrase` — the phrases of a sort; `TxTree.Ty` — the types; `TxTree.Fields` — fields
  with their types.
* `TxTree.TypePhrase.print`, `TxTree.TypePhrase.tree`, `TxTree.TypePhrase.nesting` — the lexemes of
  a phrase, its tree, and how deep it nests.

## Main results

* `TxTree.TypePhrase.reads` — every type and all fields are read.
-/

namespace TxTree

open Grammar

/-! ## Phrases -/

/-- A builtin scalar type or the name of a type. -/
abbrev TypeName := { l : Lexeme // (l.kind.isScalarType || l.kind.isName) = true }

/-- The sorts of phrases that types are made of. -/
inductive TypeSort where
  /-- A whole type. -/
  | whole
  /-- A type without brackets behind it. -/
  | base
  /-- Fields of a record with their types. -/
  | fields
deriving DecidableEq, Repr

/-- **The phrases that types are made of.** -/
inductive TypePhrase : TypeSort → Type where
  /-- A type without brackets behind it. -/
  | plain (t : TypePhrase .base) : TypePhrase .whole
  /-- `T[]`. -/
  | array (t : TypePhrase .whole) : TypePhrase .whole
  /-- A scalar or a name. -/
  | named (n : TypeName) : TypePhrase .base
  /-- `[T]`. -/
  | listOf (t : TypePhrase .whole) : TypePhrase .base
  /-- `List<T>`. -/
  | generic (t : TypePhrase .whole) : TypePhrase .base
  /-- `Map<K, V>`, with or without the comma. -/
  | map (key value : TypePhrase .whole) (comma : Bool) : TypePhrase .base
  /-- An anonymous record. -/
  | record (fs : TypePhrase .fields) : TypePhrase .base
  /-- No fields. -/
  | noField : TypePhrase .fields
  /-- `name: T`, with or without a comma, and the further fields. -/
  | field (name : Name) (t : TypePhrase .whole) (comma : Bool) (rest : TypePhrase .fields) :
    TypePhrase .fields

/-- The types. -/
abbrev Ty := TypePhrase .whole

/-- Fields of a record with their types. -/
abbrev Fields := TypePhrase .fields

namespace TypePhrase

open TokenKind

/-- **The lexemes of a type.** -/
def print : {s : TypeSort} → TypePhrase s → List Lexeme
  | _, plain t => t.print
  | _, array t => t.print ++ [lBracket.lexeme, rBracket.lexeme]
  | _, named n => [n.1]
  | _, listOf t => lBracket.lexeme :: t.print ++ [rBracket.lexeme]
  | _, generic t => listType.lexeme :: lt.lexeme :: t.print ++ [gt.lexeme]
  | _, map k v b =>
    mapType.lexeme :: lt.lexeme :: k.print ++ commaIf b ++ v.print ++ [gt.lexeme]
  | _, record fs => lBrace.lexeme :: fs.print ++ [rBrace.lexeme]
  | _, noField => []
  | _, field n t b rest => n.1 :: colon.lexeme :: t.print ++ commaIf b ++ rest.print

/-- **The tree of a type**, or the trees of the fields. -/
def tree : {s : TypeSort} → TypePhrase s → List Shape
  | _, plain t => t.tree
  | _, array t => [.node .arrayType (t.tree ++ leaves [lBracket.lexeme, rBracket.lexeme])]
  | _, named n => [.node .typeRef [.leaf n.1]]
  | _, listOf t => [.node .listType (.leaf lBracket.lexeme :: t.tree ++ [.leaf rBracket.lexeme])]
  | _, generic t =>
    [.node .genericType (leaves [listType.lexeme, lt.lexeme] ++ t.tree ++ [.leaf gt.lexeme])]
  | _, map k v b =>
    [.node .mapType (leaves [mapType.lexeme, lt.lexeme] ++ k.tree ++ leaves (commaIf b) ++ v.tree ++
      [.leaf gt.lexeme])]
  | _, record fs =>
    [.node .anonymousRecordType (.leaf lBrace.lexeme :: fs.tree ++ [.leaf rBrace.lexeme])]
  | _, noField => []
  | _, field n t b rest =>
    .node .recordField (leaves [n.1, colon.lexeme] ++ t.tree ++ leaves (commaIf b)) :: rest.tree

/-- The number of empty pairs of brackets behind a type. -/
def arrayCount : {s : TypeSort} → TypePhrase s → Nat
  | _, array t => t.arrayCount + 1
  | _, _ => 0

/-- **How deep a type nests**: a level for each type, and for each pair of brackets behind it. -/
def nesting : {s : TypeSort} → TypePhrase s → Nat
  | _, plain t => t.nesting + 1
  | _, array t => max t.nesting (t.arrayCount + 1 + 1)
  | _, named _ => 0
  | _, listOf t => t.nesting
  | _, generic t => t.nesting
  | _, map k v _ => max k.nesting v.nesting
  | _, record fs => fs.nesting
  | _, noField => 0
  | _, field _ t _ rest => max t.nesting rest.nesting

end TypePhrase

/-! ## How types begin -/

/-- Whether an empty pair of brackets comes next. -/
def startsArray (l : Lookahead) : Bool := l.starts .lBracket && l.continues .rBracket

/-- Whether a phrase may be followed by some lexemes: a type by anything but an empty pair of
brackets, and fields by their closing brace. -/
def TypeSort.endsBefore : TypeSort → List Lexeme → Prop
  | whole, w => startsArray (lookaheadOf w) = false
  | base, _ => True
  | fields, w => (lookaheadOf w).startsWith (· != .rBrace) = false

/-- Brackets that do not come next are no empty pair of brackets. -/
lemma startsArray_eq_false {l : Lookahead} (h : l.starts .lBracket = false) :
    startsArray l = false := by
  rw [startsArray, h, Bool.false_and]

namespace TypePhrase

open TokenKind

/-- What a phrase begins with: a type with what a type begins with, but not with an empty pair of
brackets. -/
def BeginsAsType (w : List Lexeme) : Prop :=
  startsType (lookaheadOf w) = true ∧ ∀ w', startsArray (lookaheadOf (w ++ w')) = false

/-- Every type begins as a type. -/
lemma beginsAsType {s : TypeSort} (t : TypePhrase s) (hs : s ≠ .fields) :
    BeginsAsType t.print := by
  induction t with
  | plain t ih => exact ih nofun
  | array t ih =>
    obtain ⟨hstarts, harray⟩ := ih nofun
    refine ⟨startsWith_append hstarts, fun w' => ?_⟩
    rw [print, List.append_assoc]
    exact harray _
  | named n =>
    obtain ⟨⟨k, text⟩, hk⟩ := n
    refine ⟨?_, fun w' => startsArray_eq_false ?_⟩
    · cases k <;> first | rfl | cases hk
    · cases k <;> first | rfl | cases hk
  | listOf t ih =>
    refine ⟨rfl, fun w' => ?_⟩
    have hsecond : (lookaheadOf (t.print ++ (rBracket.lexeme :: w'))).starts .rBracket = false := by
      rw [starts_eq_startsWith]
      exact startsWith_eq_false_of_disjoint (by decide) (startsWith_append (ih nofun).1)
    simp only [print, List.cons_append, List.append_assoc, List.nil_append, lookaheadOf_cons]
    exact hsecond
  | generic t => exact ⟨rfl, fun _ => rfl⟩
  | map k v b => exact ⟨rfl, fun _ => rfl⟩
  | record fs => exact ⟨rfl, fun _ => rfl⟩
  | noField => exact absurd rfl hs
  | field n t b rest => exact absurd rfl hs

end TypePhrase

/-! ## Reading -/

/-- **The rule that reads the phrases of a sort.** -/
def TypeSort.rule : TypeSort → Rule
  | whole => Rule.type
  | base => baseType
  | fields => .loop (·.endsList .rBrace) recordField

namespace TypePhrase

open TokenKind

/-- Whether a phrase is read wherever there is room for it and it may be followed by what is
next. -/
def IsRead {s : TypeSort} (t : TypePhrase s) : Prop :=
  ∀ (room : Nat) (f : List Shape) (w : List Lexeme), t.nesting ≤ room → s.endsBefore w →
    Reads room s.rule f (t.print ++ w) (f ++ t.tree) w

/-- Whether a type with some brackets behind it is read, inside its own level, wherever there is
room for it, whatever the further brackets come to. -/
def IsReadBeforeArrays (t : Ty) : Prop :=
  ∀ (room : Nat) (f' : List Shape) (w w' : List Lexeme), t.nesting ≤ room + 1 →
    Reads (room - t.arrayCount) arraySuffixes t.tree w f' w' →
    Reads room (baseType ++ arraySuffixes) [] (t.print ++ w) f' w'

variable {room : Nat} {f : List Shape} {w : List Lexeme}

lemma isReadBeforeArrays_plain {t : TypePhrase .base} (ht : t.IsRead) :
    (plain t).IsReadBeforeArrays :=
  fun room _ w _ hroom harrays => (ht room [] w (Nat.le_of_succ_le_succ hroom) trivial).seq harrays

lemma isReadBeforeArrays_array {t : Ty} (ht : t.IsReadBeforeArrays) :
    (array t).IsReadBeforeArrays := by
  intro room f' w w' hroom harrays
  obtain ⟨htroom, hcount⟩ := Nat.max_le.1 hroom
  obtain ⟨m, hm⟩ := Nat.exists_eq_add_one.2 (Nat.sub_pos_of_lt (Nat.le_of_succ_le_succ hcount))
  have hrest : room - (array t).arrayCount = m := by rw [arrayCount]; omega
  have htree : (array t).tree =
      [.node .arrayType (t.tree ++ [.leaf lBracket.lexeme] ++ [.leaf rBracket.lexeme])] := by
    simp [tree, leaves]
  rw [hrest, htree] at harrays
  have harray :
      Reads (m + 1) arraySuffixes t.tree (lBracket.lexeme :: rBracket.lexeme :: w) f' w' :=
    .yes rfl (.nest (.seq (.wrap (.bump_append .bump)) harrays))
  rw [← hm] at harray
  exact (ht room f' _ w' htroom harray).of_eq (by simp [print]) rfl

/-- Every type takes up a level. -/
lemma nesting_pos (t : Ty) : 0 < t.nesting := by
  cases t with
  | plain t => exact Nat.succ_pos _
  | array t => exact Nat.lt_of_lt_of_le (Nat.succ_pos _) (Nat.le_max_right ..)

/-- A type with brackets is read where there are no further ones. -/
lemma IsReadBeforeArrays.isRead {t : Ty} (ht : t.IsReadBeforeArrays) : t.IsRead := by
  intro room f w hroom hw
  obtain ⟨room, rfl⟩ := Nat.exists_eq_add_one.2 (t.nesting_pos.trans_le hroom)
  exact .nest (.mark (ht room t.tree w w hroom (.no hw .done)))

lemma isRead_named {n : TypeName} : (named n).IsRead := by
  intro room f w _ _
  have hresolve (second : Option TokenKind) :
      baseType.resolve ⟨some n.1.kind, second⟩ = .node .typeRef .bump := by
    obtain ⟨⟨k, text⟩, hk⟩ := n
    cases k <;> first | rfl | cases hk
  exact .of_resolve_cons (hresolve _) (.node .bump)

lemma isRead_listOf {t : Ty} (ht : t.IsRead) : (listOf t).IsRead := by
  intro room f w hroom _
  have hlist : Reads room baseType f (lBracket.lexeme :: (t.print ++ rBracket.lexeme :: w)) _ w :=
    .of_resolve (.node ((Reads.bump.seq (ht room _ (rBracket.lexeme :: w) hroom rfl)).seq
      (.expect rfl)))
  have hall : Reads room TypeSort.base.rule f _ _ w := hlist
  exact hall.of_eq (by simp [print]) (by simp [tree])

lemma isRead_generic {t : Ty} (ht : t.IsRead) : (generic t).IsRead := by
  intro room f w hroom _
  have hargument : Reads room
      (.branch (·.starts .lt) (.bump ++ .type ++ .expect .gt "Expected '>'") .done)
      ([] ++ [.leaf listType.lexeme]) (lt.lexeme :: (t.print ++ gt.lexeme :: w)) _ w :=
    .yes rfl ((Reads.bump.seq (ht room _ (gt.lexeme :: w) hroom rfl)).seq (.expect rfl))
  have hall : Reads room TypeSort.base.rule f (listType.lexeme :: _) _ w :=
    .of_resolve (.node (.bump_append hargument))
  exact hall.of_eq (by simp [print]) (by simp [tree, leaves])

/-- Behind the comma of a map, or behind its keys if there is none, there is no empty pair of
brackets; … -/
lemma not_startsArray_commaIf (comma : Bool) (v : Ty) (w : List Lexeme) :
    startsArray (lookaheadOf (commaIf comma ++ (v.print ++ w))) = false := by
  cases comma with
  | false => exact (v.beginsAsType nofun).2 w
  | true => rfl

/-- … and a type is no comma. -/
lemma not_starts_comma (v : Ty) (w : List Lexeme) :
    (lookaheadOf (v.print ++ w)).starts .comma = false := by
  rw [starts_eq_startsWith]
  exact startsWith_eq_false_of_disjoint (by decide)
    (startsWith_append (v.beginsAsType nofun).1)

lemma isRead_map {k v : Ty} {b : Bool} (hk : k.IsRead) (hv : v.IsRead) : (map k v b).IsRead := by
  intro room f w hroom _
  obtain ⟨hroom₁, hroom₂⟩ := Nat.max_le.1 hroom
  have harguments : Reads room
      (.branch (·.starts .lt)
        (.bump ++ .type ++ .eat .comma ++ .type ++ .expect .gt "Expected '>'") .done)
      ([] ++ [.leaf mapType.lexeme])
      (lt.lexeme :: (k.print ++ (commaIf b ++ (v.print ++ gt.lexeme :: w)))) _ w :=
    .yes rfl ((((Reads.bump.seq (hk room _ _ hroom₁ (not_startsArray_commaIf b v _))).seq
      (.lexemeIf b (not_starts_comma v _))).seq (hv room _ (gt.lexeme :: w) hroom₂ rfl)).seq
        (.expect rfl))
  have hall : Reads room TypeSort.base.rule f (mapType.lexeme :: _) _ w :=
    .of_resolve (.node (.bump_append harguments))
  exact hall.of_eq (by simp [print]) (by simp [tree, leaves])

/-- The fields of a record are read with their braces. -/
lemma IsRead.braced {fs : Fields} (hfs : fs.IsRead) (hroom : fs.nesting ≤ room) :
    Reads room recordFields f (lBrace.lexeme :: (fs.print ++ rBrace.lexeme :: w))
      (f ++ [.leaf lBrace.lexeme] ++ fs.tree ++ [.leaf rBrace.lexeme]) w :=
  .bump_append ((hfs room _ (rBrace.lexeme :: w) hroom rfl).seq (.expect rfl))

lemma isRead_record {fs : Fields} (hfs : fs.IsRead) : (record fs).IsRead := by
  intro room f w hroom _
  have hall : Reads room TypeSort.base.rule f
      (lBrace.lexeme :: (fs.print ++ rBrace.lexeme :: w)) _ w :=
    .of_resolve (.node (hfs.braced hroom))
  exact hall.of_eq (by simp [print]) (by simp [tree])

lemma isRead_noField : noField.IsRead := fun _ _ _ _ hw => .noMore hw

/-- Behind a field there is another one or the closing brace: no empty pair of brackets and no
comma. -/
lemma follows_field (rest : Fields) (hw : TypeSort.fields.endsBefore w) :
    startsArray (lookaheadOf (rest.print ++ w)) = false ∧
      (lookaheadOf (rest.print ++ w)).starts .comma = false := by
  cases rest with
  | noField =>
    have hnot {kind : TokenKind} (hkind : kind ≠ .rBrace) :
        (lookaheadOf w).starts kind = false := by
      rw [starts_eq_startsWith]
      exact startsWith_eq_false_of_imp (fun k hk => beq_iff_eq.1 hk ▸ bne_iff_ne.2 hkind) hw
    exact ⟨startsArray_eq_false (hnot nofun), hnot nofun⟩
  | field n t b rest => exact ⟨startsArray_eq_false (n.not_starts _ rfl), n.not_starts _ rfl⟩

lemma isRead_field {n : Name} {t : Ty} {b : Bool} {rest : Fields} (ht : t.IsRead)
    (hrest : rest.IsRead) : (field n t b rest).IsRead := by
  intro room f w hroom hw
  obtain ⟨hroom₁, hroom₂⟩ := Nat.max_le.1 hroom
  obtain ⟨harray, hcomma⟩ := follows_field rest hw
  have hafter : startsArray (lookaheadOf (commaIf b ++ (rest.print ++ w))) = false := by
    cases b with
    | false => exact harray
    | true => rfl
  have htype : Reads room (typeAfterName ++ .eat .comma) ([] ++ [.leaf n.1])
      (colon.lexeme :: (t.print ++ (commaIf b ++ (rest.print ++ w)))) _ (rest.print ++ w) :=
    (Reads.expectThen rfl (ht room _ _ hroom₁ hafter)).seq (.lexemeIf b hcomma)
  have hfield : Reads room recordField f _ _ (rest.print ++ w) := .node (.nameThen n.2 htype)
  have hall : Reads room TypeSort.fields.rule f _ _ w :=
    .step (n.not_endsList _ rfl) hfield (by simp; omega) (hrest room _ w hroom₂ hw)
  exact hall.of_eq (by simp [print]) (by simp [tree, leaves])

/-! ### All phrases -/

/-- Whether a phrase is read; a type, also before further brackets. -/
def Readable : {s : TypeSort} → TypePhrase s → Prop
  | .whole, t => t.IsReadBeforeArrays
  | _, t => t.IsRead

lemma Readable.isRead {s : TypeSort} {t : TypePhrase s} (ht : t.Readable) : t.IsRead := by
  cases s with
  | whole => exact IsReadBeforeArrays.isRead ht
  | _ => exact ht

/-- Every phrase is read.

**Proof sketch.** Induction on the phrase, with one law for each way to make a phrase. -/
lemma readable {s : TypeSort} (t : TypePhrase s) : t.Readable := by
  induction t with
  | plain t ih => exact isReadBeforeArrays_plain ih
  | array t ih => exact isReadBeforeArrays_array ih
  | named n => exact isRead_named
  | listOf t ih => exact isRead_listOf ih.isRead
  | generic t ih => exact isRead_generic ih.isRead
  | map k v b ih₁ ih₂ => exact isRead_map ih₁.isRead ih₂.isRead
  | record fs ih => exact isRead_record ih
  | noField => exact isRead_noField
  | field n t b rest ih₁ ih₂ => exact isRead_field ih₁.isRead ih₂

/-- **Every type and all fields are read** from the lexemes that spell them, with their trees, where
there is room for them and what is next may follow them. -/
theorem reads {s : TypeSort} (t : TypePhrase s) (hroom : t.nesting ≤ room) (hw : s.endsBefore w) :
    Reads room s.rule f (t.print ++ w) (f ++ t.tree) w :=
  t.readable.isRead room f w hroom hw

end TypePhrase

end TxTree
