import TxTree.Proofs.Sparing

set_option relaxedAutoImplicit false
set_option autoImplicit false

/-!
# The productions are sparing

One law for each production of the grammar. A production that looks before it takes is sparing
whatever comes next; one that begins with taking a token is sparing where that token is known.

## Main results

* `TxTree.Grammar.sparing_operand` — the tightest layer of expressions is sparing.
* `TxTree.Grammar.spares_nested` — the rules of the nesting levels are sparing.
* `TxTree.Grammar.spares_bodyItem` — so are the blocks and bindings of a body.
-/

namespace TxTree.Grammar

open Rule Lookahead

/-! ## Combinators -/

section Combinators

variable {r first second yes no : Rule} {P : Lookahead → Prop} {test : Lookahead → Bool}
  {ok : TokenKind → Prop}

lemma Rule.Sparing.append (h₁ : first.Sparing) (h₂ : second.Sparing) : (first ++ second).Sparing :=
  ⟨h₁, h₂.spares _⟩

lemma Rule.Spares.append (h₁ : first.Spares Soft P) (h₂ : second.Sparing) :
    (first ++ second).Spares Soft P :=
  ⟨h₁, h₂.spares _⟩

lemma Rule.Sparing.report_append (h : r.Sparing) (message : String) :
    (.report message ++ r : Rule).Sparing :=
  ⟨trivial, h⟩

/-- To take a token that is known is sparing. -/
lemma spares_bump (hP : ∀ l, P l → l.Allows Soft) : Rule.bump.Spares Soft P := hP

/-- To take a token of a kind that is known to come next is sparing. -/
lemma spares_bump_of_starts {kind : TokenKind} (hkind : kind ∉ hardWords) :
    Rule.bump.Spares Soft fun l => l.starts kind = true :=
  fun _ => allows_of_starts hkind

/-- To take a token of one of the kinds that are known to come next is sparing. -/
lemma spares_bump_of_startsWith {p : TokenKind → Bool} (hp : ∀ word ∈ hardWords, p word = false) :
    Rule.bump.Spares Soft fun l => l.startsWith p = true :=
  fun _ => allows_of_startsWith hp

/-- To pass over a token that is known is sparing. -/
lemma spares_reject (hP : ∀ l, P l → l.Allows Soft) (message : String) :
    (reject message).Spares Soft P :=
  ⟨trivial, hP⟩

/-- A choice is sparing if its test does not see a declaration and both of its sides are sparing. -/
lemma spares_branch (htest : ∀ l m, P l → l.Continued m → test l = test m)
    (hyes : yes.Spares ok fun l => P l ∧ test l = true)
    (hno : no.Spares ok fun l => P l ∧ test l = false) : (Rule.branch test yes no).Spares ok P := by
  refine ⟨fun l m hP h => ?_, hyes, hno⟩
  simp only [resolve, ← htest l m hP h]
  cases hl : test l with
  | true => exact hyes.resolve_eq ⟨hP, hl⟩ h
  | false => exact hno.resolve_eq ⟨hP, hl⟩ h

/-- A choice by a blind test, where only the first side needs to know how it came out. -/
lemma Lookahead.Blind.spares_branch (htest : Blind test)
    (hyes : yes.Spares Soft fun l => test l = true)
    (hno : no.Spares Soft P) : (Rule.branch test yes no).Spares Soft P :=
  Grammar.spares_branch (fun l m _ => htest l m) (hyes.mono (fun _ => id) fun _ h => h.2)
    (hno.mono (fun _ => id) fun _ h => h.1)

/-- A choice by the kind that comes next. -/
lemma spares_starts {kind : TokenKind} (hkind : kind ∉ hardWords)
    (hyes : yes.Spares Soft fun l => l.starts kind = true) (hno : no.Spares Soft P) :
    (Rule.branch (·.starts kind) yes no).Spares Soft P :=
  (blind_starts hkind).spares_branch hyes hno

/-- A choice by whether the kind that comes next is one of several. -/
lemma spares_startsWith {p : TokenKind → Bool} (hp : ∀ word ∈ hardWords, p word = false)
    (hyes : yes.Spares Soft fun l => l.startsWith p = true) (hno : no.Spares Soft P) :
    (Rule.branch (·.startsWith p) yes no).Spares Soft P :=
  (blind_startsWith p hp).spares_branch hyes hno

/-- A node is as sparing as its body, wherever it is opened. -/
lemma Rule.Spares.node (h : r.Spares ok P) (kind : NodeKind) : (Rule.node kind r).Spares ok P := h

lemma Rule.Spares.wrap (h : r.Spares ok P) (kind : NodeKind) : (Rule.wrap kind r).Spares ok P := h

/-- A loop is sparing if it stops where no token may be taken. -/
lemma spares_loop {stop : Lookahead → Bool} (hstop : Blind stop)
    (htake : ∀ l : Lookahead, stop l = false → l.Allows Soft)
    (hbody : r.Spares Soft fun l => stop l = false) : (Rule.loop stop r).Spares Soft P :=
  ⟨hstop, htake, hbody⟩

end Combinators

/-! ## Common rules -/

section Common

variable {kind : TokenKind} {yes no item : Rule}

lemma sparing_expectThen (hkind : kind ∉ hardWords) (hyes : yes.Sparing) (hno : no.Sparing)
    (message : String) : (expectThen kind message yes no).Sparing :=
  spares_starts hkind ((spares_bump_of_starts hkind).append hyes) (hno.report_append message)

lemma sparing_done : Rule.done.Sparing := trivial

lemma sparing_report (message : String) : (Rule.report message).Sparing := trivial

lemma sparing_expect (hkind : kind ∉ hardWords) (message : String) :
    (expect kind message).Sparing :=
  sparing_expectThen hkind sparing_done sparing_done message

lemma sparing_eat (hkind : kind ∉ hardWords) : (eat kind).Sparing :=
  spares_starts hkind (spares_bump_of_starts hkind) sparing_done

/-- No word that opens a declaration may stand as a name. -/
lemma isName_hardWords : ∀ word ∈ hardWords, word.isName = false := by decide

lemma sparing_nameThen (hyes : yes.Sparing) (hno : no.Sparing) (message : String) :
    (nameThen message yes no).Sparing :=
  spares_startsWith isName_hardWords
    ((spares_bump_of_startsWith isName_hardWords).append hyes) (hno.report_append message)

lemma sparing_name (message : String) : (name message).Sparing :=
  sparing_nameThen sparing_done sparing_done message

lemma sparing_nameIfAny : nameIfAny.Sparing :=
  spares_startsWith isName_hardWords (spares_bump_of_startsWith isName_hardWords) sparing_done

/-- Items up to a closing token are sparing if they are so before a token that opens no
declaration. -/
lemma sparing_itemsThrough (hclose : kind ∉ hardWords)
    (hitem : item.Spares Soft fun l => l.endsList kind = false) (message : String) :
    (itemsThrough kind message item).Sparing :=
  Rule.Sparing.append
    (spares_loop (blind_endsList kind) (fun _ => allows_of_not_endsList) hitem)
    (sparing_expect hclose message)

lemma sparing_braced (hitem : item.Spares Soft fun l => l.endsList .rBrace = false) :
    (braced item).Sparing :=
  sparing_expectThen (by decide) (sparing_itemsThrough (by decide) hitem _) sparing_done _

lemma sparing_expression : Rule.expression.Sparing := ⟨fun _ _ => trivial, trivial⟩

lemma sparing_type : Rule.type.Sparing := ⟨fun _ _ => trivial, trivial⟩

lemma sparing_semicolon : semicolon.Sparing := sparing_expect (by decide) _

end Common

/-! ## Types -/

section Types

lemma sparing_typeAfterName : typeAfterName.Sparing :=
  sparing_expectThen (by decide) sparing_type
    (spares_startsWith (by decide) (sparing_type.spares _) sparing_done) _

lemma sparing_recordField : recordField.Sparing :=
  sparing_nameThen (sparing_typeAfterName.append (sparing_eat (by decide))) sparing_done _

lemma spares_recordFields : recordFields.Spares Soft fun l => l.starts .lBrace = true :=
  (spares_bump_of_starts (by decide)).append
    (sparing_itemsThrough (by decide) (sparing_recordField.spares _) _)

lemma sparing_baseType : baseType.Sparing := by
  refine spares_starts (by decide) ?list (spares_starts (by decide) ?generic
    (spares_starts (by decide) ?map (spares_starts (by decide) spares_recordFields
      (spares_startsWith (by decide) (spares_bump_of_startsWith (by decide)) ?missing))))
  case list =>
    exact ((spares_bump_of_starts (by decide)).append sparing_type).append
      (sparing_expect (by decide) _)
  case generic =>
    refine (spares_bump_of_starts (by decide)).append (spares_starts (by decide) ?_ sparing_done)
    exact ((spares_bump_of_starts (by decide)).append sparing_type).append
      (sparing_expect (by decide) _)
  case map =>
    refine (spares_bump_of_starts (by decide)).append (spares_starts (by decide) ?_ sparing_done)
    exact ((((spares_bump_of_starts (by decide)).append sparing_type).append
      (sparing_eat (by decide))).append sparing_type).append (sparing_expect (by decide) _)
  case missing => exact (sparing_report _).append sparing_done

/-- Two kinds that come next, one after the other. -/
lemma first_second_of_starts {l : Lookahead} {first second : TokenKind}
    (h : (l.starts first && l.continues second) = true) :
    l.first = some first ∧ l.second = some second := by
  rw [Bool.and_eq_true, starts, continues, beq_iff_eq, beq_iff_eq] at h
  exact h

lemma sparing_arraySuffixes : arraySuffixes.Sparing := by
  refine Blind.spares_branch ?_ ⟨fun _ => first_second_of_starts, trivial⟩ sparing_done
  intro l m h
  have hblind := blind_startsWith_and (· == .lBracket) (· == .rBracket) (by decide) (by decide)
    (by decide) l m h
  simpa only [starts_eq, continues_eq] using hblind

lemma sparing_typeRule : typeRule.Sparing := sparing_baseType.append sparing_arraySuffixes

lemma spares_arrayRule : arrayRule.Spares Soft Nesting.array.Entry := by
  refine ⟨⟨fun l h => ⟨.lBracket, h.1, rfl⟩, ?_⟩, sparing_arraySuffixes.spares _⟩
  rintro l ⟨l₀, h, hl⟩
  exact ⟨.rBracket, hl.trans h.2, rfl⟩

lemma sparing_typeOrUnion : typeOrUnion.Sparing := by
  refine sparing_type.append (spares_starts (by decide) ?_ sparing_done)
  have hbar (l : Lookahead) (h : (!l.starts .pipe) = false) : l.starts .pipe = true := by
    simpa using h
  refine Rule.Spares.wrap (spares_loop (blind_starts (by decide)).not ?_ ?_) _
  · exact fun l h => allows_of_starts (by decide) (hbar l h)
  · exact (spares_bump fun l h => allows_of_starts (by decide) (hbar l h)).append sparing_type

end Types

/-! ## Expressions -/

section Expressions

lemma sparing_expressionsThrough {close : TokenKind} (hclose : close ∉ hardWords)
    (message : String) : (expressionsThrough close message).Sparing :=
  sparing_itemsThrough hclose ((sparing_expression.append (sparing_eat (by decide))).spares _) _

lemma sparing_mapEntry : mapEntry.Sparing :=
  ((sparing_expression.append (sparing_expect (by decide) _)).append sparing_expression).append
    (sparing_eat (by decide))

lemma spares_spreadThen {rest : Rule} (hrest : rest.Sparing) :
    (spreadThen rest).Spares Soft fun l => l.starts .spread = true :=
  ((spares_bump_of_starts (by decide)).append sparing_nameIfAny).append hrest

lemma sparing_recordInit : recordInit.Sparing := by
  refine spares_starts (by decide) (spares_spreadThen (sparing_eat (by decide))) ?_
  exact sparing_nameThen (((sparing_expect (by decide) _).append sparing_expression).append
    (sparing_eat (by decide))) sparing_done _

lemma spares_recordInits {P : Lookahead → Prop} (hP : ∀ l, P l → l.Allows Soft) :
    recordInits.Spares Soft P :=
  (spares_bump hP).append (sparing_itemsThrough (by decide) (sparing_recordInit.spares _) _)

lemma spares_parenthesis : parenthesis.Spares Soft fun l => l.starts .lParen = true := by
  have hopen (l : Lookahead) (h : l.starts .lParen = true ∧ l.continues .rParen = true) :
      l.first = some .lParen ∧ l.second = some .rParen :=
    first_second_of_starts (Bool.and_eq_true _ _ ▸ h)
  refine spares_branch ?_ ⟨fun l h => ⟨_, (hopen l h).1, rfl⟩, ?_⟩ ?_
  · intro l m h hlm
    cases hlm with
    | same => rfl
    | last hword => exact (continues_word (by decide) hword).symm
    | beyond => cases h
    | closed hfirst =>
      cases beq_iff_eq.1 h
      exact absurd hfirst (by decide)
  · rintro l ⟨l₀, h, hl⟩
    exact ⟨_, hl.trans (hopen l₀ h).2, rfl⟩
  · refine Spares.append (Spares.append (spares_bump fun l h => ?_) sparing_expression)
      (sparing_expect (by decide) _)
    exact allows_of_starts (by decide) h.1

/-- To take a token of one of the kinds that are known to come next, and then what a known kind
begins. -/
lemma spares_bump_append {p : TokenKind → Bool} {kind : TokenKind} {r : Rule}
    (hp : ∀ word ∈ hardWords, p word = false) (hr : r.Spares Soft fun l => l.starts kind = true) :
    (.bump ++ r : Rule).Spares Soft fun l => (l.startsWith p && l.continues kind) = true := by
  refine ⟨fun l h => ?_, hr.mono (fun _ => id) ?_⟩
  · exact allows_of_startsWith hp (Bool.and_eq_true_iff.1 h).1
  · rintro l ⟨l₀, h, hl⟩
    rw [starts, hl]
    exact (Bool.and_eq_true_iff.1 h).2

/-- A choice by the next two kinds. -/
lemma spares_startsWith_and {p : TokenKind → Bool} {kind : TokenKind} {yes no : Rule}
    {P : Lookahead → Prop} (hp : ∀ word ∈ hardWords, p word = false)
    (hclose : ∀ k ∈ closers, p k = false) (hkind : kind ∉ hardWords)
    (hyes : yes.Spares Soft fun l => (l.startsWith p && l.continues kind) = true)
    (hno : no.Spares Soft P) :
    (Rule.branch (fun l => l.startsWith p && l.continues kind) yes no).Spares Soft P := by
  refine Blind.spares_branch (fun l m h => ?_) hyes hno
  have hblind :=
    blind_startsWith_and p (· == kind) hp hclose (beq_eq_false_of_mem_hardWords hkind) l m h
  simpa only [continues_eq] using hblind

lemma spares_variant : variant.Spares Soft
    fun l => (l.startsWith TokenKind.isName && l.continues .colonColon) = true := by
  refine (spares_bump_append isName_hardWords (spares_bump_of_starts (by decide))).append ?_
  exact sparing_nameThen (spares_starts (by decide)
    (spares_recordInits fun _ => allows_of_starts (by decide)) sparing_done) sparing_done _

lemma spares_call : call.Spares Soft
    fun l => (l.startsWith (fun k => k.isName || k == .ada) && l.continues .lParen) = true :=
  spares_bump_append (by decide)
    (.node ((spares_bump_of_starts (by decide)).append
      (sparing_expressionsThrough (by decide) _)) _)

/-- What is tried for an operand where a token comes next. -/
lemma spares_operand_of_not_isEnd : operand.Spares Soft fun l => l.isEnd = false := by
  have hsome (l m : Lookahead) (p : TokenKind → Bool) (hl : l.isEnd = false)
      (hm : l.Continued m) : l.startsWith p = m.startsWith p := by
    cases hm with
    | same => rfl
    | last => rfl
    | beyond => cases hl
    | closed => rfl
  refine spares_branch ?atEnd trivial (spares_starts (by decide) ?spread
    (spares_starts (by decide) spares_parenthesis (spares_starts (by decide) ?list
      (spares_starts (by decide) ?map
        (spares_startsWith_and isName_hardWords (by decide) (by decide) spares_variant
          (spares_startsWith_and isName_hardWords (by decide) (by decide) ?record
            (spares_startsWith_and (by decide) (by decide) (by decide) spares_call
              (spares_startsWith (by decide) (spares_bump_of_startsWith (by decide))
                (spares_startsWith (by decide) (spares_bump_of_startsWith (by decide))
                  (spares_branch ?closing trivial ?nothing))))))))))
  case atEnd =>
    intro l m hl hm
    cases hm with
    | same => rfl
    | last => rfl
    | beyond => cases hl
    | closed => rfl
  case spread => exact spares_spreadThen sparing_done
  case list =>
    exact (spares_bump_of_starts (by decide)).append (sparing_expressionsThrough (by decide) _)
  case map =>
    exact (spares_bump_of_starts (by decide)).append
      (sparing_itemsThrough (by decide) (sparing_mapEntry.spares _) _)
  case record =>
    exact spares_bump_append isName_hardWords
      (spares_recordInits fun _ => allows_of_starts (by decide))
  case closing => exact fun l m hl hm => hsome l m _ hl.1 hm
  case nothing =>
    refine spares_reject (fun l h => ?_) _
    obtain ⟨⟨hend, -⟩, hclosing⟩ := h
    obtain ⟨_ | first, second⟩ := l
    · cases hend
    · exact ⟨first, rfl, (Bool.or_eq_false_iff.1 hclosing).2⟩

/-- **The tightest layer is sparing.** It looks for the end before all else, and reports the same
there as it does, last but one, before a word that opens a declaration. -/
lemma sparing_operand : operand.Sparing := by
  obtain ⟨hsame, -, hno⟩ := spares_operand_of_not_isEnd
  refine ⟨fun l m _ hm => ?_, trivial, hno.mono (fun _ => id) fun l h => ⟨h.2, h.2⟩⟩
  cases hm with
  | same => rfl
  | last hword => exact hsame _ _ rfl (.last hword)
  | closed hfirst => exact hsame _ _ rfl (.closed hfirst)
  | @beyond word second hword =>
    simp only [← mem_hardWords_iff, hardWords, List.mem_cons, List.not_mem_nil, or_false] at hword
    rcases hword with rfl | rfl | rfl | rfl | rfl <;> rfl

lemma sparing_suffixes : suffixes.Sparing := by
  refine spares_startsWith (by decide) ⟨fun l h => ?_, trivial⟩ sparing_done
  obtain ⟨_ | first, second⟩ := l
  · cases h
  · have hfirst := Bool.or_eq_true_iff.1 h
    rw [beq_iff_eq, beq_iff_eq] at hfirst
    exact hfirst.imp (congrArg some) (congrArg some)

lemma spares_suffixRule : suffixRule.Spares Soft Nesting.suffixed.Entry := by
  refine Rule.Spares.append (spares_branch (fun l m _ => blind_starts (by decide) l m) ?_ ?_)
    sparing_suffixes
  · exact ((spares_bump fun l h => allows_of_starts (by decide) h.2).append (sparing_name _)).wrap _
  · refine Rule.Spares.wrap ?_ _
    refine Rule.Spares.append (Rule.Spares.append (spares_bump ?_) sparing_expression)
      (sparing_expect (by decide) _)
    rintro l ⟨hentry, hdot⟩
    rcases hentry with hfirst | hfirst
    · simp [starts, hfirst] at hdot
    · exact ⟨_, hfirst, rfl⟩

lemma sparing_postfixed : postfixed.Sparing := sparing_operand.append sparing_suffixes

lemma sparing_unary : unary.Sparing := by
  refine spares_startsWith (by decide) ⟨fun l h => ?_, sparing_postfixed.spares _⟩ sparing_postfixed
  obtain ⟨_ | first, second⟩ := l
  · cases h
  · have hfirst := Bool.or_eq_true_iff.1 h
    rw [beq_iff_eq, beq_iff_eq] at hfirst
    exact hfirst.imp (congrArg some) (congrArg some)

lemma spares_signedRule : signedRule.Spares Soft Nesting.signed.Entry := by
  refine (spares_bump fun l h => ?_).append sparing_unary
  rcases h with hfirst | hfirst
  · exact ⟨_, hfirst, rfl⟩
  · exact ⟨_, hfirst, rfl⟩

/-- A layer of operators that are no words is as sparing as the next one. -/
lemma sparing_layer {isOperator : TokenKind → Bool} {next : Rule}
    (hop : ∀ word ∈ hardWords, isOperator word = false) (hnext : next.Sparing) :
    (layer isOperator next).Sparing := by
  refine hnext.append (spares_startsWith hop (.wrap ?_ _) sparing_done)
  have htake (l : Lookahead) (h : (!l.startsWith isOperator) = false) : l.Allows Soft :=
    allows_of_startsWith hop (by simpa using h)
  exact spares_loop (blind_startsWith _ hop).not htake ((spares_bump htake).append hnext)

lemma sparing_binary : binary.Sparing :=
  sparing_layer (by decide) (sparing_layer (by decide) (sparing_layer (by decide)
    (sparing_layer (by decide) sparing_unary)))

lemma sparing_conditional : conditional.Sparing :=
  sparing_binary.append (spares_starts (by decide)
    (.wrap ((((spares_bump_of_starts (by decide)).append sparing_expression).append
      (sparing_expect (by decide) _)).append sparing_expression) _) sparing_done)

/-- **The rules of the nesting levels are sparing** where they are entered. -/
theorem spares_nested (level : Nesting) : (nested level).Spares Soft level.Entry := by
  cases level with
  | expression => exact sparing_conditional
  | signed => exact spares_signedRule
  | suffixed => exact spares_suffixRule
  | type => exact sparing_typeRule
  | array => exact spares_arrayRule

end Expressions

/-! ## Blocks -/

section Blocks

lemma sparing_valueAfterKey : valueAfterKey.Sparing :=
  ((sparing_expect (by decide) _).append sparing_expression).append (sparing_eat (by decide))

lemma spares_blockField : blockField.Spares Soft fun l => l.endsList .rBrace = false := by
  refine spares_branch (fun l m _ => blind_startsWith _ isName_hardWords l m) (.node ?_ _)
    (spares_reject (fun l h => allows_of_not_endsList h.1) _)
  exact (spares_bump fun l h => allows_of_startsWith isName_hardWords h.2).append
    sparing_valueAfterKey

lemma sparing_fieldBlock : fieldBlock.Sparing := sparing_braced spares_blockField

lemma sparing_localBinding : localBinding.Sparing :=
  sparing_nameThen sparing_valueAfterKey sparing_done _

lemma sparing_metadataField : metadataField.Sparing := by
  refine spares_startsWith (by decide) ?key (spares_startsWith isName_hardWords ?badKey
    (spares_starts (by decide) ?noKey (sparing_report _)))
  case key =>
    exact (spares_bump_of_startsWith (by decide)).append sparing_valueAfterKey
  case badKey =>
    exact Rule.Spares.append ⟨trivial, spares_bump_of_startsWith isName_hardWords⟩
      sparing_valueAfterKey
  case noKey => exact (sparing_valueAfterKey.report_append _).spares _

variable {kind : TokenKind}

lemma spares_inputBlock (hkind : kind ∉ hardWords) :
    inputBlock.Spares Soft fun l => l.starts kind = true :=
  (((spares_bump_of_starts hkind).append (sparing_eat (by decide))).append
    sparing_nameIfAny).append sparing_fieldBlock

lemma spares_namedBlock (hkind : kind ∉ hardWords) (block : NodeKind) :
    (namedBlock block).Spares Soft fun l => l.starts kind = true :=
  ((spares_bump_of_starts hkind).append sparing_nameIfAny).append sparing_fieldBlock

lemma spares_plainBlock (hkind : kind ∉ hardWords) (block : NodeKind) :
    (plainBlock block).Spares Soft fun l => l.starts kind = true :=
  (spares_bump_of_starts hkind).append sparing_fieldBlock

lemma spares_localsBlock (hkind : kind ∉ hardWords) :
    localsBlock.Spares Soft fun l => l.starts kind = true :=
  (spares_bump_of_starts hkind).append (sparing_braced (sparing_localBinding.spares _))

lemma spares_signersBlock (hkind : kind ∉ hardWords) :
    signersBlock.Spares Soft fun l => l.starts kind = true :=
  (spares_bump_of_starts hkind).append
    (sparing_braced ((sparing_expression.append (sparing_eat (by decide))).spares _))

lemma spares_metadataBlock (hkind : kind ∉ hardWords) :
    metadataBlock.Spares Soft fun l => l.starts kind = true :=
  (spares_bump_of_starts hkind).append (sparing_braced (sparing_metadataField.spares _))

lemma spares_cardanoBlock (hkind : kind ∉ hardWords) :
    cardanoBlock.Spares Soft fun l => l.starts kind = true :=
  (spares_bump_of_starts hkind).append (sparing_expectThen (by decide)
    (sparing_nameThen sparing_fieldBlock sparing_done _) sparing_done _)

lemma spares_letBinding (hkind : kind ∉ hardWords) :
    Grammar.letBinding.Spares Soft fun l => l.starts kind = true :=
  (spares_bump_of_starts hkind).append (sparing_nameThen
    (((sparing_expect (by decide) _).append sparing_expression).append
      (sparing_expect (by decide) _)) sparing_done _)

/-- **Blocks and bindings are sparing** before the end of the body. -/
lemma spares_bodyItem : bodyItem.Spares Soft fun l => l.endsList .rBrace = false := by
  refine spares_starts (by decide) (spares_inputBlock (by decide)) ?_
  refine spares_starts (by decide) (spares_namedBlock (by decide) _) ?_
  refine spares_starts (by decide) (spares_namedBlock (by decide) _) ?_
  refine spares_starts (by decide) (spares_namedBlock (by decide) _) ?_
  refine spares_starts (by decide) (spares_namedBlock (by decide) _) ?_
  refine spares_starts (by decide) (spares_plainBlock (by decide) _) ?_
  refine spares_starts (by decide) (spares_plainBlock (by decide) _) ?_
  refine spares_starts (by decide) (spares_localsBlock (by decide)) ?_
  refine spares_starts (by decide) (spares_signersBlock (by decide)) ?_
  refine spares_starts (by decide) (spares_metadataBlock (by decide)) ?_
  refine spares_starts (by decide) (spares_cardanoBlock (by decide)) ?_
  refine spares_starts (by decide) (spares_letBinding (by decide)) ?_
  exact spares_reject (fun l h => allows_of_not_endsList h) _

end Blocks

/-! ## Parts of declarations -/

section Parts

lemma spares_importCall : importCall.Spares Soft fun l => l.starts .importKw = true := by
  have hpath : (Rule.node .pathExpr
      (.loop (fun l => l.endsList .rParen || l.starts .semicolon) .bump)).Sparing := by
    refine Rule.Spares.node (spares_loop ((blind_endsList _).or (blind_starts (by decide))) ?_ ?_) _
    · exact fun l h => allows_of_not_endsList (Bool.or_eq_false_iff.1 h).1
    · exact spares_bump fun l h => allows_of_not_endsList (Bool.or_eq_false_iff.1 h).1
  exact (spares_bump_of_starts (by decide)).append (sparing_expectThen (by decide)
    (hpath.append (sparing_expect (by decide) _)) sparing_done _)

lemma spares_caseTypes : caseTypes.Spares Soft fun l => l.starts .lParen = true :=
  (spares_bump_of_starts (by decide)).append
    (sparing_itemsThrough (by decide) ((sparing_type.append (sparing_eat (by decide))).spares _) _)

lemma sparing_variantCase : variantCase.Sparing :=
  sparing_nameThen ((Rule.Sparing.append (spares_starts (by decide) spares_recordFields
    (spares_starts (by decide) spares_caseTypes sparing_done)) (sparing_eat (by decide))))
    sparing_done _

/-- The choice between cases and fields looks two tokens ahead, but at neither for a word that opens
a declaration. -/
lemma blind_startsCase : Blind startsCase := by
  have hblind := blind_startsWith_and TokenKind.isName
    (fun k => k == .lBrace || k == .comma || k == .rBrace || k == .lParen) isName_hardWords
    (by decide) (by decide)
  have heq : startsCase = fun l => l.startsWith TokenKind.isName &&
      l.second.any fun k => k == .lBrace || k == .comma || k == .rBrace || k == .lParen := by
    funext l
    obtain ⟨first, _ | second⟩ := l <;> rfl
  exact heq ▸ hblind

lemma sparing_txParam : txParam.Sparing := sparing_nameThen sparing_typeAfterName sparing_done _

lemma sparing_paramList : paramList.Sparing := by
  refine sparing_expectThen (by decide) (Rule.Sparing.append (spares_loop ?_ ?_ ?_)
    (sparing_expect (by decide) _)) sparing_done _
  · exact (blind_endsList _).or (blind_starts (by decide))
  · exact fun l h => allows_of_not_endsList (Bool.or_eq_false_iff.1 h).1
  · exact (sparing_txParam.append (sparing_eat (by decide))).spares _

end Parts

end TxTree.Grammar
