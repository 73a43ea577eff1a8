import TxTree.Grammar.Rule

set_option relaxedAutoImplicit false
set_option autoImplicit false

/-!
# The grammar of types

A type is a base and any number of empty pairs of brackets behind it, each of which makes an array
type of what stands before it. A base is a builtin scalar or a name, a list or a map with its
arguments in angle brackets, a list in brackets, or an anonymous record in braces. An alias may
stand for a union of types.

## Main definitions

* `TxTree.Grammar.typeRule`, `TxTree.Grammar.arrayRule` — the two nesting levels.
* `TxTree.Grammar.typeOrUnion` — one type, or a union of several.
* `TxTree.Grammar.recordField`, `TxTree.Grammar.recordFields` — fields with their types.
-/

namespace TxTree.Grammar

open Rule

/-- Whether a type begins here. -/
def startsType (l : Lookahead) : Bool :=
  l.startsWith fun k => k.isBuiltinType || k.isName || k == .lBracket || k == .lBrace

/-- The type after the name of a field or parameter: a colon and a type. Where the colon is
missing but a type plainly follows, that is read all the same. -/
def typeAfterName : Rule :=
  expectThen .colon "Expected ':'" type (.branch startsType type .done)

/-- `name: Type` and a comma if there is one. -/
def recordField : Rule :=
  .node .recordField (nameThen "Expected field name" (typeAfterName ++ eat .comma) .done)

/-- The fields between braces, of which the opening one comes next. -/
def recordFields : Rule := .bump ++ itemsThrough .rBrace "Expected '\x7d'" recordField

/-- A type without brackets behind it. -/
def baseType : Rule :=
  .branch (·.starts .lBracket)
    (.node .listType (.bump ++ type ++ expect .rBracket "Expected ']'")) <|
  .branch (·.starts .listType)
    (.node .genericType (.bump ++
      .branch (·.starts .lt) (.bump ++ type ++ expect .gt "Expected '>'") .done)) <|
  .branch (·.starts .mapType)
    (.node .mapType (.bump ++
      .branch (·.starts .lt)
        (.bump ++ type ++ eat .comma ++ type ++ expect .gt "Expected '>'") .done)) <|
  .branch (·.starts .lBrace)
    (.node .anonymousRecordType recordFields) <|
  .branch (·.startsWith fun k => k.isScalarType || k.isName)
    (.node .typeRef .bump) <|
  .report "Expected a type name" ++ .node .typeRef .done

/-- The brackets behind a type, one nesting level for each pair. -/
def arraySuffixes : Rule :=
  .branch (fun l => l.starts .lBracket && l.continues .rBracket) (.nest .array .done) .done

/-- A type with the brackets behind it. -/
def typeRule : Rule := .mark (baseType ++ arraySuffixes)

/-- A pair of brackets behind a type, and the further ones. -/
def arrayRule : Rule := .wrap .arrayType (.bump ++ .bump) ++ arraySuffixes

/-- One type, or several with bars between them as one union. -/
def typeOrUnion : Rule :=
  .mark (type ++
    .branch (·.starts .pipe)
      (.wrap .unionType (.loop (fun l => !l.starts .pipe) (.bump ++ type))) .done)

end TxTree.Grammar
