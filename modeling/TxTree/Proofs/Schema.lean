import TxTree.Grammar.Expressions
import TxTree.Proofs.Words

set_option relaxedAutoImplicit false
set_option autoImplicit false

/-!
# The schema of the tree

Which nodes may stand below a node is settled by its kind, whatever the tokens were that it was
parsed from. What has to be there is settled by its kind as well, if no error was found. Both are
said of one node and the nodes directly below it.

## Main definitions

* `TxTree.NodeKind.admits` — which child nodes a kind admits.
* `TxTree.Node.IsWhole` — nothing is missing in a node.
* `TxTree.Node.IsSound` — what every node of a parse is held to, with errors or without.

## Main results

* `TxTree.Node.isSound_of_words`, `TxTree.Node.name?_isSome_of_mem` — how a node is known to be
  sound by the word of its parts.
-/

namespace TxTree

/-! ## Admitted child nodes -/

namespace NodeKind

/-- The expressions. -/
def isExpression : NodeKind → Bool
  | .binaryExpr | .unaryExpr | .callExpr | .recordLiteral | .nameRef | .literal | .listExpr
  | .mapExpr | .spreadExpr | .variantExpr | .fieldAccessExpr | .indexExpr | .ternaryExpr => true
  | _ => false

/-- A kind of a set, or that of a token that was passed over. -/
def orError (p : NodeKind → Bool) (k : NodeKind) : Bool := p k || k == .error

/-- The kinds of which it is only demanded that something stands below them. -/
def isPlain : NodeKind → Bool
  | .envDecl | .localsBlock | .signersBlock | .metadataBlock | .variantTupleParams | .paramList
  | .argList | .callExpr | .recordLiteral | .variantExpr | .listExpr | .spreadExpr | .nameRef
  | .literal | .typeRef | .listType | .mapType | .genericType | .arrayType | .unionType
  | .anonymousRecordType => true
  | _ => false

/-- The blocks of which no more is demanded than names for their fields. -/
def isFieldBlock : NodeKind → Bool
  | .inputBlock | .outputBlock | .burnBlock | .mintBlock | .collateralBlock | .referenceBlock
  | .validityBlock => true
  | _ => false

/-- No more kinds than `bound`, all of a set. -/
def upTo (bound : Nat) (p : NodeKind → Bool) (kinds : List NodeKind) : Bool :=
  kinds.length ≤ bound && kinds.all p

/-- **Which child nodes a kind admits**, by their kinds. A call that imports a policy differs from
other calls in the first of its own tokens. -/
def admits (tokens : List TokenKind) (kinds : List NodeKind) : NodeKind → Bool
  | .file => kinds.all (orError isDeclaration)
  -- Declarations.
  | .partyDecl | .assetDecl => kinds.isEmpty
  | .policyDecl => kinds == [.callExpr] || kinds.all (orError (· == .blockField))
  | .recordDecl | .envDecl => kinds.all (orError (· == .recordField))
  | .typeDecl =>
    kinds.all (orError (· == .recordField)) || kinds.all (orError (· == .variantCase))
  | .typeAliasDecl => kinds.length == 1 && kinds.all isType
  | .txDecl =>
    match kinds with
    | [] => true
    | first :: rest =>
      first == .paramList && rest.all (orError fun k => k.isBlock || k == .letBinding)
  -- Blocks.
  | .inputBlock | .outputBlock | .burnBlock | .mintBlock | .collateralBlock | .referenceBlock
  | .validityBlock | .metadataBlock | .cardanoBlock => kinds.all (orError (· == .blockField))
  | .localsBlock => kinds.all (orError (· == .letBinding))
  | .signersBlock => kinds.all (orError isExpression)
  -- Fields, bindings, cases and lists.
  | .recordField | .txParam => upTo 1 isType kinds
  | .blockField | .letBinding | .recordFieldInit => upTo 1 (orError isExpression) kinds
  | .variantCase => kinds == [.variantTupleParams] || kinds.all (orError (· == .recordField))
  | .variantTupleParams => kinds.all (orError isType)
  | .paramList => kinds.all (orError (· == .txParam))
  | .argList => kinds.all (orError isExpression)
  -- Expressions.
  | .binaryExpr | .listExpr | .mapExpr => kinds.all (orError isExpression)
  | .unaryExpr | .fieldAccessExpr => upTo 1 (orError isExpression) kinds
  | .indexExpr => upTo 2 (orError isExpression) kinds
  | .ternaryExpr => upTo 3 (orError isExpression) kinds
  | .callExpr =>
    if tokens.head? = some .importKw then kinds.isEmpty || kinds == [.pathExpr]
    else kinds == [.argList]
  | .recordLiteral | .variantExpr =>
    kinds.all (orError fun k => k == .recordFieldInit || k == .spreadExpr)
  | .nameRef | .literal | .pathExpr | .spreadExpr => kinds.isEmpty
  -- Types.
  | .typeRef => kinds.isEmpty
  | .listType | .genericType => upTo 1 isType kinds
  | .mapType => upTo 2 isType kinds
  | .arrayType => kinds.length == 1 && kinds.all isType
  | .unionType => 2 ≤ kinds.length && kinds.all isType
  | .anonymousRecordType => kinds.all (orError (· == .recordField))
  | .error => kinds.isEmpty

lemma isBlock_of_isFieldBlock {k : NodeKind} (h : k.isFieldBlock = true) : k.isBlock = true := by
  cases k <;> first | rfl | cases h

lemma admits_of_isFieldBlock {k : NodeKind} (h : k.isFieldBlock = true) (tokens : List TokenKind)
    (kinds : List NodeKind) : k.admits tokens kinds = kinds.all (orError (· == .blockField)) := by
  cases k <;> first | rfl | cases h

/-! ### What holds a child -/

section Holders

variable {c c' k : NodeKind} {tokens : List TokenKind} {kinds : List NodeKind} {p : NodeKind → Bool}

lemma all_eq_false (hm : c ∈ kinds) (hp : p c = false) : kinds.all p = false := by
  rw [List.all_eq_false]
  exact ⟨c, hm, by rw [hp]; exact Bool.false_ne_true⟩

lemma isEmpty_eq_false (hm : c ∈ kinds) : kinds.isEmpty = false := by
  cases kinds with
  | nil => cases hm
  | cons => rfl

lemma beq_singleton_eq_false (hm : c ∈ kinds) (hne : c ≠ c') : (kinds == [c']) = false := by
  rw [beq_eq_false_iff_ne]
  rintro rfl
  exact hne (List.mem_singleton.1 hm)

/-- A transaction holds its parameters, blocks, bindings and tokens that were passed over. -/
lemma mem_txDecl (h : txDecl.admits tokens kinds = true) (hm : c ∈ kinds) :
    c = .paramList ∨ orError (fun k => k.isBlock || k == .letBinding) c = true := by
  cases kinds with
  | nil => cases hm
  | cons first rest =>
    obtain ⟨hfirst, hrest⟩ := Bool.and_eq_true_iff.1 h
    rcases List.mem_cons.1 hm with rfl | hm
    · exact .inl (eq_of_beq hfirst)
    · exact .inr (List.all_eq_true.1 hrest c hm)

/-- Fields are held by blocks other than those of locals and signers, and by policies. -/
lemma holder_of_blockField (h : k.admits tokens kinds = true) (hm : .blockField ∈ kinds) :
    k = .metadataBlock ∨ k = .policyDecl ∨ k = .cardanoBlock ∨ k.isFieldBlock = true := by
  revert h
  cases k
  case metadataBlock => exact fun _ => .inl rfl
  case policyDecl => exact fun _ => .inr (.inl rfl)
  case cardanoBlock => exact fun _ => .inr (.inr (.inl rfl))
  case txDecl =>
    intro h
    obtain h | h := mem_txDecl h hm <;> cases h
  -- The other kinds hold fields without further demands, or none at all.
  all_goals first
    | exact fun _ => .inr (.inr (.inr rfl))
    | simp (disch := decide) only [admits, upTo, isEmpty_eq_false hm, all_eq_false hm,
        beq_singleton_eq_false hm, Bool.and_false, Bool.or_false, Bool.false_eq_true, ite_self,
        false_imp_iff]

/-- Paths are held by calls that import a policy. -/
lemma holder_of_pathExpr (h : k.admits tokens kinds = true) (hm : .pathExpr ∈ kinds) :
    k = .callExpr ∧ tokens.head? = some .importKw := by
  revert h
  cases k
  case callExpr =>
    rw [admits]
    split
    · next himport => exact fun _ => ⟨rfl, himport⟩
    · rw [beq_singleton_eq_false hm (by decide)]
      exact nofun
  case txDecl =>
    intro h
    obtain h | h := mem_txDecl h hm <;> cases h
  all_goals
    simp (disch := decide) only [admits, upTo, isEmpty_eq_false hm, all_eq_false hm,
      beq_singleton_eq_false hm, Bool.and_false, Bool.or_false, Bool.false_eq_true, false_imp_iff]

end Holders

end NodeKind

/-! ## Whole nodes -/

namespace Node

/-- A type is the only child node, and the one that is found. -/
def HasType (n : Node) : Prop :=
  ∃ m, n.childNodes = [m] ∧ m.kind.isType = true ∧ n.declaredType? = some m

/-- An expression is the only child node. -/
def HasValue (n : Node) : Prop := ∃ m, n.childNodes = [m] ∧ m.kind.isExpression = true

/-- The tokens of a kind directly below a node. -/
def tokensOf (p : TokenKind → Bool) (n : Node) : List Token :=
  n.significantTokens.filter (p ·.kind)

/-- There are operators, all of one layer, and one child node more. -/
def HasOperands (n : Node) : Prop :=
  n.tokensOf TokenKind.isOperator ≠ [] ∧
  n.childNodes.length = (n.tokensOf TokenKind.isOperator).length + 1 ∧
  ∃ layer ∈ [Grammar.isLogical, TokenKind.isComparison, Grammar.isSum, Grammar.isProduct],
    ∀ t ∈ n.tokensOf TokenKind.isOperator, layer t.kind = true

/-- All fields directly below a node have names. -/
def HasNamedFields (n : Node) : Prop :=
  ∀ m ∈ n.childNodes, m.kind = .blockField → m.name?.isSome = true

/-- What has to be there, by the kind of a node. -/
def HasAll (n : Node) : Prop :=
  match n.kind with
  | .error => False
  | .partyDecl | .recordDecl | .typeDecl | .txDecl | .assetDecl | .variantCase =>
    n.name?.isSome = true
  | .policyDecl | .cardanoBlock => n.name?.isSome = true ∧ n.HasNamedFields
  | .inputBlock | .outputBlock | .burnBlock | .mintBlock | .collateralBlock | .referenceBlock
  | .validityBlock => n.HasNamedFields
  | .typeAliasDecl | .recordField | .txParam => n.name?.isSome = true ∧ n.HasType
  | .letBinding | .recordFieldInit => n.name?.isSome = true ∧ n.HasValue
  | .blockField => n.HasValue
  | .binaryExpr => n.HasOperands
  | .unaryExpr => n.childNodes.length = 1
  | .fieldAccessExpr => n.name?.isSome = true ∧ n.childNodes.length = 1
  | .indexExpr => n.childNodes.length = 2
  | .ternaryExpr => n.childNodes.length = 3
  | .mapExpr => n.childNodes.length = 2 * (n.tokensOf (· == .colon)).length
  | _ => True

lemma hasAll_of_isPlain {n : Node} (h : n.kind.isPlain = true) : n.HasAll := by
  unfold HasAll
  split <;> simp_all [NodeKind.isPlain]

lemma hasAll_iff_of_isFieldBlock {n : Node} (h : n.kind.isFieldBlock = true) :
    n.HasAll ↔ n.HasNamedFields := by
  unfold HasAll
  split <;> simp_all [NodeKind.isFieldBlock]

/-- Where fields are demanded to have names, and where there can be none. -/
lemma hasNamedFields_of_hasAll {n : Node} {tokens : List TokenKind}
    (hadmitted : n.kind.admits tokens (n.childNodes.map (·.kind)) = true) (h : n.HasAll)
    (hk : n.kind ≠ .metadataBlock) : n.HasNamedFields := by
  intro m hm hfield
  obtain hkind | hkind | hkind | hkind :=
    NodeKind.holder_of_blockField hadmitted (List.mem_map.2 ⟨m, hm, hfield⟩)
  · exact absurd hkind hk
  · rw [HasAll, hkind] at h
    exact h.2 m hm hfield
  · rw [HasAll, hkind] at h
    exact h.2 m hm hfield
  · exact (hasAll_iff_of_isFieldBlock hkind).1 h m hm hfield

/-- **Nothing is missing in a node**: it has children, unless it is the path of an import, and what
its kind has to have. -/
structure IsWhole (n : Node) : Prop where
  /-- Something is below the node. -/
  children_ne_nil : n.children ≠ [] ∨ n.kind = .pathExpr
  /-- What has to be there is there. -/
  all : n.HasAll

/-- **What every node of a parse is held to**, errors or not: its child nodes are admitted by its
kind, and a character that begins no token is below it only if it is the path of an import or that
character was passed over. If no errors may be found, nothing is missing. -/
structure IsSound (faulty : Prop) (n : Node) : Prop where
  /-- The child nodes are admitted. -/
  admitted : n.kind.admits (n.significantTokens.map (·.kind)) (n.childNodes.map (·.kind)) = true
  /-- All tokens are known. -/
  known : n.kind ≠ .pathExpr → n.kind ≠ .error → ∀ t, .token t ∈ n.parts → t.kind ≠ .invalid
  /-- Nothing is missing. -/
  whole : ¬ faulty → n.IsWhole

end Node

/-! ## Nodes by the words of their parts -/

namespace Grammar

open NodeKind

/-- The nodes of a set of kinds. -/
def ofKind (p : NodeKind → Bool) (n : Node) : Prop := p n.kind = true

lemma ofKind_of_eq {p : NodeKind → Bool} {n : Node} {k : NodeKind} (hk : n.kind = k)
    (hp : p k = true) : ofKind p n := by
  rwa [ofKind, hk]

/-- The tokens that are any. -/
def isKnown (k : TokenKind) : Bool := k != .invalid

/-- Lists of up to so many nodes. -/
def atMost (bound : Nat) (q : Node → Prop) : Language Node :=
  {ns | ns.length ≤ bound ∧ ∀ n ∈ ns, q n}

/-- Lists of so many nodes or more. -/
def atLeast (bound : Nat) (q : Node → Prop) : Language Node :=
  {ns | bound ≤ ns.length ∧ ∀ n ∈ ns, q n}

/-- The words of a token, and certain nodes behind it. -/
def opened (p : TokenKind → Bool) (N : Language Node) : Language Element :=
  token p * words isKnown N

/-- The words of a name and certain nodes behind it; if the name is missing, so are the nodes. -/
def named (faulty : Prop) (N : Language Node) : Language Element :=
  token TokenKind.isName * words isKnown N + amiss faulty (words isKnown 1)

section Languages

variable {faulty : Prop} {b : Nat} {p : NodeKind → Bool} {q q' : Node → Prop} {N : Language Node}
  {ns : List Node}

lemma mul_atMost_le (a b : Nat) (q : Node → Prop) : atMost a q * atMost b q ≤ atMost (a + b) q := by
  rintro _ ⟨ms, ⟨hms, hms'⟩, ns, ⟨hns, hns'⟩, rfl⟩
  refine ⟨?_, fun n hn => (List.mem_append.1 hn).elim (hms' n) (hns' n)⟩
  rw [List.length_append]
  exact Nat.add_le_add hms hns

lemma unit_le_atMost (b : Nat) (q : Node → Prop) : 1 ≤ atMost b q := by
  rintro _ rfl
  exact ⟨Nat.zero_le b, fun n hn => (nomatch hn)⟩

lemma one_le_atMost (hq : ∀ n, q n → q' n) : one q ≤ atMost 1 q' := by
  rintro _ ⟨n, hn, rfl⟩
  refine ⟨le_rfl, fun m hm => ?_⟩
  rw [List.mem_singleton.1 hm]
  exact hq n hn

lemma mul_atLeast_le (a b : Nat) (q : Node → Prop) :
    atLeast a q * atLeast b q ≤ atLeast (a + b) q := by
  rintro _ ⟨ms, ⟨hms, hms'⟩, ns, ⟨hns, hns'⟩, rfl⟩
  refine ⟨?_, fun n hn => (List.mem_append.1 hn).elim (hms' n) (hns' n)⟩
  rw [List.length_append]
  exact Nat.add_le_add hms hns

lemma atLeast_anti {a : Nat} (h : a ≤ b) : atLeast b q ≤ atLeast a q :=
  fun _ hns => ⟨h.trans hns.1, hns.2⟩

lemma one_le_atLeast (q : Node → Prop) : one q ≤ atLeast 1 q := by
  rintro _ ⟨n, hn, rfl⟩
  refine ⟨le_rfl, fun m hm => ?_⟩
  rw [List.mem_singleton.1 hm]
  exact hn

lemma atMost_le_every (hq : ∀ n, q n → q' n) : atMost b q ≤ every q' :=
  fun _ h n hn => hq n (h.2 n hn)

/-- Where no error may be found, nothing is amiss. -/
lemma amiss_eq_zero {α : Type} (h : ¬ faulty) (L : Language α) : amiss faulty L = 0 :=
  Set.eq_empty_of_forall_notMem fun _ hps => h hps.1

lemma named_eq (h : ¬ faulty) (N : Language Node) :
    named faulty N = token TokenKind.isName * words isKnown N := by
  rw [named, amiss_eq_zero h, add_zero]

lemma isKnown_of_isName : ∀ k : TokenKind, k.isName = true → isKnown k = true := by decide

lemma named_le_words (faulty : Prop) (N : Language Node) :
    named faulty N ≤ words isKnown (N + amiss faulty 1) := by
  refine add_le ((token_mul_words_le isKnown_of_isName).trans (words_le le_self_add)) ?_
  exact (amiss_words_le _ isKnown 1).trans (words_le le_add_self)

/-- All nodes are of a set of kinds. -/
lemma all_map_kind (h : ns ∈ every (ofKind p)) : (ns.map (·.kind)).all p = true := by
  rw [List.all_map, List.all_eq_true]
  exact h

lemma upTo_map_kind (h : ns ∈ atMost b (ofKind p)) : upTo b p (ns.map (·.kind)) = true := by
  rw [upTo, List.length_map, Bool.and_eq_true, decide_eq_true_iff]
  exact ⟨h.1, all_map_kind h.2⟩

end Languages

end Grammar

namespace Node

open Grammar

variable {faulty : Prop} {n : Node} {k : NodeKind} {p : TokenKind → Bool}
  {N : Language Node} {L H : Language Element}

lemma childNodes_mem (h : n.parts ∈ words p N) : n.childNodes ∈ N := by
  rw [childNodes_eq]
  exact h.2

lemma parts_ne_nil_of_mem {q : Node → Prop} (h : n.parts ∈ words p (one q)) : n.parts ≠ [] := by
  intro hnil
  obtain ⟨m, -, hnodes⟩ := h.2
  rw [hnil] at hnodes
  cases hnodes

lemma children_ne_nil_of_parts (h : n.parts ≠ []) : n.children ≠ [] := by
  intro hnil
  rw [parts, hnil] at h
  exact h rfl

lemma parts_ne_nil (h : n.parts ∈ token p * L) : n.parts ≠ [] := by
  obtain ⟨t, qs, -, -, hps⟩ := exists_cons_of_mem_token_mul h
  rw [hps]
  exact List.cons_ne_nil _ _

/-- **A node is sound by the word of its parts**, if its kind admits the nodes of it whatever the
tokens. -/
lemma isSound_of_words (hk : n.kind = k) (hparts : n.parts ∈ words isKnown N)
    (hadmits : ∀ tokens, ∀ ns ∈ N, k.admits tokens (ns.map (·.kind)) = true)
    (hne : ¬ faulty → n.parts ≠ []) (hall : ¬ faulty → n.HasAll) : n.IsSound faulty where
  admitted := hk ▸ hadmits _ _ (childNodes_mem hparts)
  known := fun _ _ t ht => bne_iff_ne.1 (hparts.1 t ht)
  whole := fun hclean => ⟨.inl (children_ne_nil_of_parts (hne hclean)), hall hclean⟩

/-- **A node has its name** behind what the place of its name is found by. -/
lemma name?_isSome_of_mem (hk : n.kind = k) (hparts : n.parts ∈ H * (token TokenKind.isName * L))
    (hplace : ∀ ps ∈ H, ∀ (t : Token) (ts : List Token), t.kind.isName = true →
      nameToken? k (ps.filterMap Element.token? ++ t :: ts) = some t) : n.name?.isSome = true := by
  obtain ⟨ps, hps, qs, hqs, heq⟩ := hparts
  obtain ⟨t, rs, ht, -, rfl⟩ := exists_cons_of_mem_token_mul hqs
  have htokens : n.significantTokens =
      ps.filterMap Element.token? ++ t :: rs.filterMap Element.token? := by
    rw [significantTokens_eq, ← heq]
    exact List.filterMap_append
  rw [name?, hk, htokens, hplace ps hps t _ ht]
  simp [ht]

/-- A node that is opened by a token of its own is sound if its kind admits its nodes. -/
lemma isSound_of_opened (hk : n.kind = k) (hparts : n.parts ∈ opened p N)
    (hp : ∀ k, p k = true → isKnown k = true)
    (hadmits : ∀ tokens, ∀ ns ∈ N, k.admits tokens (ns.map (·.kind)) = true)
    (hall : ¬ faulty → n.childNodes ∈ N → n.HasAll) : n.IsSound faulty :=
  have hwords : n.parts ∈ words isKnown N := token_mul_words_le hp hparts
  isSound_of_words hk hwords hadmits (fun _ => parts_ne_nil hparts)
    fun hclean => hall hclean (childNodes_mem hwords)

/-- A node with a name is sound if its kind admits its nodes, and none. -/
lemma isSound_of_named (hk : n.kind = k) (hparts : n.parts ∈ H * named faulty N)
    (hH : H ≤ words isKnown 1)
    (hplace : ∀ ps ∈ H, ∀ (t : Token) (ts : List Token), t.kind.isName = true →
      nameToken? k (ps.filterMap Element.token? ++ t :: ts) = some t)
    (hadmits : ∀ tokens, ∀ ns ∈ N + amiss faulty 1, k.admits tokens (ns.map (·.kind)) = true)
    (hall : ¬ faulty → n.name?.isSome = true → n.childNodes ∈ N → n.HasAll) :
    n.IsSound faulty := by
  have hwords : n.parts ∈ words isKnown (N + amiss faulty 1) := by
    rw [← one_mul (N + amiss faulty 1)]
    exact words_mul_le _ _ _ (mul_le_mul' hH (named_le_words _ _) hparts)
  refine isSound_of_words hk hwords hadmits (fun hclean => ?_) fun hclean => ?_
  · rw [named_eq hclean] at hparts
    obtain ⟨ps, -, qs, hqs, heq⟩ := hparts
    obtain ⟨t, rs, -, -, rfl⟩ := exists_cons_of_mem_token_mul hqs
    rw [← heq]
    exact List.append_ne_nil_of_right_ne_nil _ (List.cons_ne_nil _ _)
  · have hnodes := childNodes_mem hwords
    rw [amiss_eq_zero hclean, add_zero] at hnodes
    rw [named_eq hclean] at hparts
    exact hall hclean (name?_isSome_of_mem hk hparts hplace) hnodes

/-- The name that comes first. -/
lemma place_first (h : ∀ ts, nameToken? k ts = ts.head?) : ∀ ps ∈ (1 : Language Element),
    ∀ (t : Token) (ts : List Token), t.kind.isName = true →
      nameToken? k (ps.filterMap Element.token? ++ t :: ts) = some t := by
  rintro _ rfl t ts -
  rw [h]
  rfl

/-- The name behind the word that opens a construct. -/
lemma place_second (h : ∀ ts, nameToken? k ts = (ts.drop 1).find? (·.kind != .star)) :
    ∀ ps ∈ token p, ∀ (t : Token) (ts : List Token), t.kind.isName = true →
      nameToken? k (ps.filterMap Element.token? ++ t :: ts) = some t := by
  rintro _ ⟨u, -, rfl⟩ t ts ht
  have hstar : (t.kind != .star) = true := by
    rw [bne_iff_ne]
    intro hstar
    rw [hstar] at ht
    cases ht
  rw [h]
  exact List.find?_cons_of_pos hstar

/-- A single node that is a type is found. -/
lemma hasType_of_mem (h : n.childNodes ∈ one (ofKind NodeKind.isType)) : n.HasType := by
  obtain ⟨m, hm, hnodes⟩ := h
  refine ⟨m, hnodes, hm, ?_⟩
  rw [declaredType?, hnodes]
  exact List.find?_cons_of_pos hm

lemma length_of_mem_one {q : Node → Prop} (h : n.childNodes ∈ one q) : n.childNodes.length = 1 := by
  obtain ⟨m, -, hnodes⟩ := h
  rw [hnodes]
  rfl

end Node

end TxTree
