import Mathlib.Data.List.Infix
import MiniPascal.Proofs.Grammar.Derives

namespace MiniPascal

/-- The span from the start of the first of some lexemes to the stop of the last. -/
def Lexeme.Extent (slice : List Lexeme) (span : Span) : Prop :=
  ∃ first last : Lexeme, slice.head? = some first ∧ slice.getLast? = some last ∧
    span = ⟨first.span.start, last.span.stop⟩

section Repetitions

variable {α : Type}

/-- `item (separator item)*`. An item is built from a slice of the lexemes, and may look at the one
that follows it. -/
inductive Listed (separator : Mark) (Item : List Lexeme → Lexeme → α → Prop) :
    List Lexeme → Lexeme → List α → Prop where
  | one {slice : List Lexeme} {next : Lexeme} {item : α} (built : Item slice next item) :
    Listed separator Item slice next [item]
  | more {slice others : List Lexeme} {mark next : Lexeme} {item : α} {items : List α}
    (built : Item slice mark item) (separates : mark.token = .mark separator)
    (rest : Listed separator Item others next items) :
    Listed separator Item (slice ++ mark :: others) next (item :: items)

/-- `left item (separator item)* right`. -/
inductive Enclosed (left separator right : Mark) (Item : List Lexeme → Lexeme → α → Prop) :
    List Lexeme → List α → Prop where
  | mk {slice : List Lexeme} {opening closing : Lexeme} {items : List α}
    (opens : opening.token = .mark left) (list : Listed separator Item slice closing items)
    (closes : closing.token = .mark right) :
    Enclosed left separator right Item (opening :: (slice ++ [closing])) items

/-- `LPAREN (item (separator item)*)? RPAREN`. -/
inductive Parenthesized (separator : Mark) (Item : List Lexeme → Lexeme → α → Prop) :
    List Lexeme → List α → Prop where
  | none {opening closing : Lexeme} (opens : opening.token = .mark .leftParen)
    (closes : closing.token = .mark .rightParen) :
    Parenthesized separator Item [opening, closing] []
  | some {slice : List Lexeme} {items : List α}
    (enclosed : Enclosed .leftParen separator .rightParen Item slice items) :
    Parenthesized separator Item slice items

/-- `(item SEMI)*`. -/
inductive Terminated (Item : List Lexeme → Lexeme → α → Prop) : List Lexeme → List α → Prop where
  | none : Terminated Item [] []
  | more {slice others : List Lexeme} {mark : Lexeme} {item : α} {items : List α}
    (built : Item slice mark item) (ends : mark.token = .mark .semicolon)
    (rest : Terminated Item others items) :
    Terminated Item (slice ++ mark :: others) (item :: items)

end Repetitions

inductive Ident.Located : List Lexeme → Lexeme → Ident → Prop where
  | mk {lexeme next : Lexeme} {name : String} (shows : lexeme.token = .ident name) :
    Located [lexeme] next ⟨name, lexeme.span⟩

/-- Expressions and what they are built from. A pair of parentheses belongs to the expression inside
it and gives it a wider span. How tight the operators bind plays no part in this. -/
inductive Expr.Located : List Lexeme → Lexeme → Expr → Prop where
  | number {lexeme next : Lexeme} {literal : Literal} (shows : lexeme.token = literal.token) :
    Located [lexeme] next (.number literal lexeme.span)
  | text {lexeme next : Lexeme} {value : String} (shows : lexeme.token = .text value) :
    Located [lexeme] next (.text value lexeme.span)
  | var {lexeme next : Lexeme} {name : String} (shows : lexeme.token = .ident name) :
    Located [lexeme] next (.var name lexeme.span)
  | unary {slice : List Lexeme} {sign next : Lexeme} {op : UnaryOp} {operand : Expr} {span : Span}
    (signs : sign.token = .mark op.mark) (built : Located slice next operand)
    (extent : Lexeme.Extent (sign :: slice) span) :
    Located (sign :: slice) next (.unary op operand span)
  | binary {slice others : List Lexeme} {mark next : Lexeme} {left right : Expr} {op : BinaryOp}
    {span : Span} (first : Located slice mark left) (operates : mark.token = .mark op.mark)
    (second : Located others next right) (extent : Lexeme.Extent (slice ++ mark :: others) span) :
    Located (slice ++ mark :: others) next (.binary left op right span)
  | relational {slice others : List Lexeme} {mark next : Lexeme} {left right : Expr}
    {op : RelationalOp} {span : Span} (first : Located slice mark left)
    (operates : mark.token = .mark op.mark) (second : Located others next right)
    (extent : Lexeme.Extent (slice ++ mark :: others) span) :
    Located (slice ++ mark :: others) next (.relational left op right span)
  | call {slice : List Lexeme} {lexeme next : Lexeme} {name : String} {args : List Expr}
    {span : Span} (shows : lexeme.token = .ident name)
    (arguments : Parenthesized .comma Located slice args)
    (extent : Lexeme.Extent (lexeme :: slice) span) :
    Located (lexeme :: slice) next (.call ⟨name, lexeme.span⟩ args span)
  | parentheses {slice : List Lexeme} {opening closing next : Lexeme} {inner : Expr} {span : Span}
    (opens : opening.token = .mark .leftParen) (built : Located slice closing inner)
    (closes : closing.token = .mark .rightParen)
    (extent : Lexeme.Extent (opening :: (slice ++ [closing])) span) :
    Located (opening :: (slice ++ [closing])) next (inner.withSpan span)

/-- Statements and what they are built from. An empty one is built from nothing, and its span lies
where the next token starts. -/
inductive Stmt.Located : List Lexeme → Lexeme → Stmt → Prop where
  | compound {slice : List Lexeme} {next : Lexeme} {body : List Stmt} {span : Span}
    (block : Enclosed .kwBegin .semicolon .kwEnd Located slice body)
    (extent : Lexeme.Extent slice span) : Located slice next (.compound body span)
  | assign {slice : List Lexeme} {lexeme mark next : Lexeme} {name : String} {value : Expr}
    {span : Span} (shows : lexeme.token = .ident name) (assigns : mark.token = .mark .assign)
    (built : value.Located slice next) (extent : Lexeme.Extent (lexeme :: mark :: slice) span) :
    Located (lexeme :: mark :: slice) next (.assign ⟨name, lexeme.span⟩ value span)
  | bareCall {lexeme next : Lexeme} {name : String} {span : Span}
    (shows : lexeme.token = .ident name) (extent : Lexeme.Extent [lexeme] span) :
    Located [lexeme] next (.call ⟨name, lexeme.span⟩ [] span)
  | call {slice : List Lexeme} {lexeme next : Lexeme} {name : String} {args : List Expr}
    {span : Span} (shows : lexeme.token = .ident name)
    (arguments : Parenthesized .comma Expr.Located slice args)
    (extent : Lexeme.Extent (lexeme :: slice) span) :
    Located (lexeme :: slice) next (.call ⟨name, lexeme.span⟩ args span)
  | ifThen {slice others : List Lexeme} {keyword mark next : Lexeme} {cond : Expr} {branch : Stmt}
    {span : Span} (ifs : keyword.token = .mark .kwIf) (tests : cond.Located slice mark)
    (thens : mark.token = .mark .kwThen) (built : Located others next branch)
    (extent : Lexeme.Extent (keyword :: (slice ++ mark :: others)) span) :
    Located (keyword :: (slice ++ mark :: others)) next (.ifThen cond branch span)
  | ifElse {slice others further : List Lexeme} {keyword mark middle next : Lexeme} {cond : Expr}
    {branch otherwise : Stmt} {span : Span} (ifs : keyword.token = .mark .kwIf)
    (tests : cond.Located slice mark) (thens : mark.token = .mark .kwThen)
    (built : Located others middle branch) (elses : middle.token = .mark .kwElse)
    (builtElse : Located further next otherwise)
    (extent : Lexeme.Extent (keyword :: (slice ++ mark :: (others ++ middle :: further))) span) :
    Located (keyword :: (slice ++ mark :: (others ++ middle :: further))) next
      (.ifElse cond branch otherwise span)
  | repeatUntil {slice others : List Lexeme} {keyword mark next : Lexeme} {body : List Stmt}
    {cond : Expr} {span : Span} (repeats : keyword.token = .mark .kwRepeat)
    (list : Listed .semicolon Located slice mark body) (untils : mark.token = .mark .kwUntil)
    (tests : cond.Located others next)
    (extent : Lexeme.Extent (keyword :: (slice ++ mark :: others)) span) :
    Located (keyword :: (slice ++ mark :: others)) next (.repeatUntil body cond span)
  | empty {next : Lexeme} : Located [] next (.empty (.point next.span.start))

/-- `id (COMMA id)* COLON type`. -/
inductive Ident.Grouped : List Lexeme → Lexeme → List Ident × VarType → Prop where
  | mk {slice : List Lexeme} {colon lexeme next : Lexeme} {names : List Ident} {type : VarType}
    (list : Listed .comma Ident.Located slice colon names) (colons : colon.token = .mark .colon)
    (types : lexeme.token = .mark type.mark) :
    Grouped (slice ++ [colon, lexeme]) next (names, type)

/-- `(VAR (group SEMI)+)?`. -/
inductive Decl.Variables : List Lexeme → List Decl → Prop where
  | absent : Variables [] []
  | present {slice : List Lexeme} {keyword : Lexeme} {groups : List (List Ident × VarType)}
    (opens : keyword.token = .mark .kwVar) (list : Terminated Ident.Grouped slice groups)
    (nonempty : groups ≠ []) :
    Variables (keyword :: slice)
      (groups.flatMap fun (names, type) => names.map fun name => Decl.var name type)

inductive Param.Located : List Lexeme → List Param → Prop where
  | absent : Located [] []
  | present {slice : List Lexeme} {groups : List (List Ident × VarType)}
    (list : Parenthesized .semicolon Ident.Grouped slice groups) :
    Located slice (groups.flatMap fun (names, type) => names.map fun name => Param.mk name type)

/-- What a kind of routine says about its result. -/
inductive RoutineKind.Result : RoutineKind → List Lexeme → Option VarType → Prop where
  | procedure : Result .procedure [] none
  | function {colon lexeme : Lexeme} {type : VarType} (colons : colon.token = .mark .colon)
    (types : lexeme.token = .mark type.mark) : Result .function [colon, lexeme] (some type)

/-- `variables (routine SEMI)* compound`. -/
inductive Block.Located (Routine : List Lexeme → Lexeme → Decl → Prop) :
    List Lexeme → Block → Prop where
  | mk {slice others further : List Lexeme} {vars nested : List Decl} {body : List Stmt}
    (declared : Decl.Variables slice vars) (routines : Terminated Routine others nested)
    (compound : Enclosed .kwBegin .semicolon .kwEnd Stmt.Located further body) :
    Located Routine (slice ++ (others ++ further)) ⟨vars ++ nested, body⟩

/-- Routines and what they are built from, up to the end of the block. -/
inductive Decl.Located : List Lexeme → Lexeme → Decl → Prop where
  | routine (kind : RoutineKind) {slice others further : List Lexeme}
    {keyword lexeme semicolon next : Lexeme} {name : String} {params : List Param}
    {result : Option VarType} {block : Block} {span : Span}
    (keys : keyword.token = .mark kind.mark) (shows : lexeme.token = .ident name)
    (parameters : Param.Located slice params) (results : kind.Result others result)
    (ends : semicolon.token = .mark .semicolon) (built : Block.Located Located further block)
    (extent :
      Lexeme.Extent (keyword :: lexeme :: (slice ++ (others ++ semicolon :: further))) span) :
    Located (keyword :: lexeme :: (slice ++ (others ++ semicolon :: further))) next
      (.routine ⟨⟨name, lexeme.span⟩, params, result, span⟩ block.declarations block.body)

/-- `PROGRAM id SEMI block DOT` and the end of the input. -/
inductive Program.Located : List Lexeme → Program → Prop where
  | mk {slice : List Lexeme} {keyword lexeme semicolon dot last : Lexeme} {name : String}
    {block : Block} (keys : keyword.token = .mark .kwProgram) (shows : lexeme.token = .ident name)
    (ends : semicolon.token = .mark .semicolon) (built : Block.Located Decl.Located slice block)
    (dots : dot.token = .mark .dot) (finishes : last.token = .mark .endOfInput) :
    Located (keyword :: lexeme :: semicolon :: (slice ++ [dot, last]))
      ⟨⟨name, lexeme.span⟩, block⟩

end MiniPascal
