import MiniPascal.Token.Basic
import MiniPascal.Proofs.Grammar.Bare

namespace MiniPascal

def BinaryOp.mark : BinaryOp → Mark
  | .add => .plus
  | .sub => .minus
  | .mul => .star
  | .intDiv => .kwDiv
  | .realDiv => .slash

def RelationalOp.mark : RelationalOp → Mark
  | .greater => .greater
  | .less => .less
  | .equal => .equal

def UnaryOp.mark : UnaryOp → Mark
  | .plus => .plus
  | .minus => .minus

def RoutineKind.mark : RoutineKind → Mark
  | .procedure => .kwProcedure
  | .function => .kwFunction

def VarType.mark : VarType → Mark
  | .integer => .kwInteger
  | .real => .kwReal

def Literal.token : Literal → Token
  | .integer value => .integer value
  | .real value => .real value

/-- The loosest operators. -/
def BinaryOp.sums : List BinaryOp := [.add, .sub]

/-- The operators that bind tighter than those of sums. -/
def BinaryOp.products : List BinaryOp := [.mul, .intDiv, .realDiv]

/-- `item (separator item)*`. -/
inductive Separated {α : Type} (separator : Mark) (Item : List Token → α → Prop) :
    List Token → List α → Prop
  | one {tokens item} : Item tokens item → Separated separator Item tokens [item]
  | more {tokens others item items} :
      Item tokens item → Separated separator Item others items →
      Separated separator Item (tokens ++ .mark separator :: others) (item :: items)

/-- `operand (operator operand)*`, with operators that associate to the left: what stands right of
an operator is a single operand. -/
inductive Chained (ops : List BinaryOp) (Operand : List Token → Expr → Prop) :
    List Token → Expr → Prop
  | operand {tokens expr} : Operand tokens expr → Chained ops Operand tokens expr
  | operator {tokens others left op right} :
      Chained ops Operand tokens left → op ∈ ops → Operand others right →
      Chained ops Operand (tokens ++ .mark op.mark :: others) (.binary left op right .blank)

inductive Nonterminal where
  | program
  | block
  | declarations
  | variableGroups
  | routines
  | routine
  | params
  | typedNames
  | type
  | compound
  | statementList
  | statement
  | assignment
  | call
  | conditional
  | loop
  | condition
  | expr
  | term
  | factor
  | arguments

abbrev Nonterminal.Tree : Nonterminal → Type
  | program => Program
  | block => Block
  | declarations | variableGroups | routines => List Decl
  | routine => Decl
  | params => List Param
  | typedNames => List Ident × VarType
  | type => VarType
  | compound | statementList => List Stmt
  | statement | assignment | call | conditional | loop => Stmt
  | condition | expr | term | factor => Expr
  | arguments => List Expr

/-- The derivations of the grammar, each with the tree that it stands for. An `ELSE` may go to any
`IF` that is open, so one text can have several derivations. -/
inductive Derives : (symbol : Nonterminal) → List Token → symbol.Tree → Prop
  | program {name tokens block} :
      Derives .block tokens block →
      Derives .program (.mark .kwProgram :: .ident name :: .mark .semicolon ::
        (tokens ++ [.mark .dot, .mark .endOfInput])) ⟨.plain name, block⟩
  | block {tokens others declarations body} :
      Derives .declarations tokens declarations → Derives .compound others body →
      Derives .block (tokens ++ others) ⟨declarations, body⟩
  | noVariables {tokens decls} : Derives .routines tokens decls → Derives .declarations tokens decls
  | someVariables {tokens others vars decls} :
      Derives .variableGroups tokens vars → Derives .routines others decls →
      Derives .declarations (.mark .kwVar :: (tokens ++ others)) (vars ++ decls)
  | lastVariables {tokens names type} :
      Derives .typedNames tokens (names, type) →
      Derives .variableGroups (tokens ++ [.mark .semicolon]) (names.map (Decl.var · type))
  | moreVariables {tokens others names type vars} :
      Derives .typedNames tokens (names, type) → Derives .variableGroups others vars →
      Derives .variableGroups (tokens ++ .mark .semicolon :: others) (names.map (Decl.var · type) ++ vars)
  | typedNames {tokens others names type} :
      Separated .comma (fun tokens ident => ∃ name, tokens = [.ident name] ∧ ident = .plain name)
        tokens names →
      Derives .type others type → Derives .typedNames (tokens ++ .mark .colon :: others) (names, type)
  | integerType : Derives .type [.mark .kwInteger] .integer
  | realType : Derives .type [.mark .kwReal] .real
  | noRoutines : Derives .routines [] []
  | moreRoutines {tokens others decl decls} :
      Derives .routine tokens decl → Derives .routines others decls →
      Derives .routines (tokens ++ .mark .semicolon :: others) (decl :: decls)
  | procedure {name tokens others params block} :
      Derives .params tokens params → Derives .block others block →
      Derives .routine (.mark .kwProcedure :: .ident name :: (tokens ++ .mark .semicolon :: others))
        (.routine ⟨.plain name, params, none, .blank⟩ block.declarations block.body)
  | function {name tokens result others params type block} :
      Derives .params tokens params → Derives .type result type → Derives .block others block →
      Derives .routine (.mark .kwFunction :: .ident name ::
          (tokens ++ .mark .colon :: (result ++ .mark .semicolon :: others)))
        (.routine ⟨.plain name, params, some type, .blank⟩ block.declarations block.body)
  | absentParams : Derives .params [] []
  | emptyParams : Derives .params [.mark .leftParen, .mark .rightParen] []
  | someParams {tokens groups} :
      Separated .semicolon (Derives .typedNames) tokens groups →
      Derives .params (.mark .leftParen :: (tokens ++ [.mark .rightParen]))
        (groups.flatMap fun (names, type) => names.map (Param.mk · type))
  | compound {tokens body} :
      Derives .statementList tokens body →
      Derives .compound (.mark .kwBegin :: (tokens ++ [.mark .kwEnd])) body
  | statementList {tokens body} :
      Separated .semicolon (Derives .statement) tokens body → Derives .statementList tokens body
  | compoundStatement {tokens body} :
      Derives .compound tokens body → Derives .statement tokens (.compound body .blank)
  | assignmentStatement {tokens stmt} : Derives .assignment tokens stmt → Derives .statement tokens stmt
  | callStatement {tokens stmt} : Derives .call tokens stmt → Derives .statement tokens stmt
  | conditionalStatement {tokens stmt} :
      Derives .conditional tokens stmt → Derives .statement tokens stmt
  | loopStatement {tokens stmt} : Derives .loop tokens stmt → Derives .statement tokens stmt
  | emptyStatement : Derives .statement [] (.empty .blank)
  | assignment {name tokens value} :
      Derives .expr tokens value →
      Derives .assignment (.ident name :: .mark .assign :: tokens) (.assign (.plain name) value .blank)
  | bareCall {name} : Derives .call [.ident name] (.call (.plain name) [] .blank)
  | call {name tokens args} :
      Derives .arguments tokens args →
      Derives .call (.ident name :: tokens) (.call (.plain name) args .blank)
  | ifThen {tokens others cond branch} :
      Derives .condition tokens cond → Derives .statement others branch →
      Derives .conditional (.mark .kwIf :: (tokens ++ .mark .kwThen :: others))
        (.ifThen cond branch .blank)
  | ifElse {tokens others rest cond branch otherwise} :
      Derives .condition tokens cond → Derives .statement others branch →
      Derives .statement rest otherwise →
      Derives .conditional
        (.mark .kwIf :: (tokens ++ .mark .kwThen :: (others ++ .mark .kwElse :: rest)))
        (.ifElse cond branch otherwise .blank)
  | loop {tokens others body cond} :
      Derives .statementList tokens body → Derives .condition others cond →
      Derives .loop (.mark .kwRepeat :: (tokens ++ .mark .kwUntil :: others))
        (.repeatUntil body cond .blank)
  | condition (op : RelationalOp) {tokens others left right} :
      Derives .expr tokens left → Derives .expr others right →
      Derives .condition (tokens ++ .mark op.mark :: others)
        (.relational left op right .blank)
  | expr {tokens expr} :
      Chained BinaryOp.sums (Derives .term) tokens expr → Derives .expr tokens expr
  | term {tokens expr} :
      Chained BinaryOp.products (Derives .factor) tokens expr → Derives .term tokens expr
  | sign (op : UnaryOp) {tokens operand} :
      Derives .factor tokens operand →
      Derives .factor (.mark op.mark :: tokens) (.unary op operand .blank)
  | integer {value} : Derives .factor [.integer value] (.number (.integer value) .blank)
  | real {value} : Derives .factor [.real value] (.number (.real value) .blank)
  | text {value} : Derives .factor [.text value] (.text value .blank)
  | parentheses {tokens expr} :
      Derives .expr tokens expr →
      Derives .factor (.mark .leftParen :: (tokens ++ [.mark .rightParen])) expr
  | var {name} : Derives .factor [.ident name] (.var name .blank)
  | callFactor {name tokens args} :
      Derives .arguments tokens args →
      Derives .factor (.ident name :: tokens) (.call (.plain name) args .blank)
  | noArguments : Derives .arguments [.mark .leftParen, .mark .rightParen] []
  | someArguments {tokens args} :
      Separated .comma (Derives .expr) tokens args →
      Derives .arguments (.mark .leftParen :: (tokens ++ [.mark .rightParen])) args

end MiniPascal
