import MiniPascal.Tree.Decode
import MiniPascal.Proofs.Tree.Leaves

namespace MiniPascal

/-- A reading gives back a value exactly under a condition, and otherwise nothing. -/
def Restores {α : Type} (reading : Option α) (value : α) (condition : Prop) : Prop :=
  ∀ read, reading = some read ↔ read = value ∧ condition

section Reading

variable {α β : Type} {reading : Option α} {next : α → Option β} {value : α} {result : β}
  {condition other : Prop}

namespace Restores

theorem pure (value : α) : Restores (some value) value True := by
  intro read
  simp [eq_comm]

theorem bind (first : Restores reading value condition)
    (rest : Restores (next value) result other) :
    Restores (reading >>= next) result (condition ∧ other) := by
  intro read
  constructor
  · intro gives
    obtain ⟨middle, gave, gives⟩ := Option.bind_eq_some_iff.mp gives
    obtain ⟨rfl, holds⟩ := (first middle).mp gave
    obtain ⟨same, holds'⟩ := (rest read).mp gives
    exact ⟨same, holds, holds'⟩
  · rintro ⟨same, holds, holds'⟩
    exact Option.bind_eq_some_iff.mpr
      ⟨value, (first value).mpr ⟨rfl, holds⟩, (rest read).mpr ⟨same, holds'⟩⟩

/-- A shape that the data has for certain adds no condition. -/
theorem given (known : reading = some value) (rest : Restores (next value) result condition) :
    Restores (reading >>= next) result condition := by
  rw [known]
  exact rest

theorem imp (restores : Restores reading value condition) (same : condition ↔ other) :
    Restores reading value other := by
  intro read
  rw [restores read, same]

theorem eq_some_iff (restores : Restores reading value condition) :
    reading = some value ↔ condition := by
  rw [restores value, and_iff_right rfl]

theorem eq_none_iff (restores : Restores reading value condition) :
    reading = none ↔ ¬ condition := by
  constructor
  · rintro rfl holds
    cases restores.eq_some_iff.mpr holds
  · intro fails
    refine Option.eq_none_iff_forall_ne_some.mpr fun read gives => ?_
    exact fails ((restores read).mp gives).2

end Restores

end Reading

/-- Offsets of 64 bits. -/
def Span.Fits (span : Span) : Prop := span.start < UInt64.size ∧ span.stop < UInt64.size

/-- A literal that data can hold: infinities and the not-a-number have no numeral. -/
def Literal.Finite : Literal → Prop
  | .integer _ => True
  | .real value => value.isFinite = true

/-- A leaf that is read back as it was. -/
def Leaf.Restorable : Leaf → Prop
  | Leaf.span place => place.Fits
  | Leaf.literal value => value.Finite

theorem Json.depth_pos (json : Json) : 0 < json.depth := by
  cases json <;> simp [Json.depth]

section Scalars

theorem Json.nat64?_restores (value : Nat) :
    Restores (Json.nat64? (.int value)) value (value < UInt64.size) := by
  intro read
  rw [Json.nat64?]
  split <;> rename_i bound <;> simp <;> omega

theorem Json.int64?_restores (value : Int64) :
    Restores (Json.int64? (.int value.toInt)) value True := by
  intro read
  rw [Json.int64?, if_pos ⟨Int64.minValue_le_toInt value, Int64.toInt_le value⟩]
  simp [eq_comm]

theorem Json.real?_restores (value : Float) :
    Restores (Json.real? (.ofReal value)) value (value.isFinite = true) := by
  intro read
  rw [Json.ofReal]
  split
  · rename_i finite
    simp [Json.real?, finite, eq_comm]
  · rename_i infinite
    simp [Json.real?, infinite]

theorem Literal.restores (literal : Literal) :
    Restores (Literal.ofJson? literal.toJson) literal literal.Finite := by
  cases literal with
  | integer value =>
    refine .imp (.given rfl (.bind (Json.int64?_restores value) (.pure (integer value)))) ?_
    simp only [Finite, and_true]
  | real value =>
    refine .imp (.given rfl (.bind (Json.real?_restores value) (.pure (real value)))) ?_
    simp only [Finite, and_true]

theorem VarType.restores (type : VarType) : Restores (VarType.ofJson? type.toJson) type True := by
  cases type <;> exact .pure _

theorem BinaryOp.restores (op : BinaryOp) : Restores (BinaryOp.ofJson? op.toJson) op True := by
  cases op <;> exact .pure _

theorem RelationalOp.restores (op : RelationalOp) :
    Restores (RelationalOp.ofJson? op.toJson) op True := by
  cases op <;> exact .pure _

theorem UnaryOp.restores (op : UnaryOp) : Restores (UnaryOp.ofJson? op.toJson) op True := by
  cases op <;> exact .pure _

theorem Span.record?_toJson (span : Span) :
    span.toJson.record? ["start", "end"] = some [.int span.start, .int span.stop] := rfl

theorem Span.restores (span : Span) : Restores (Span.ofJson? span.toJson) span span.Fits := by
  rw [Span.ofJson?, Span.record?_toJson, Option.bind_eq_bind, Option.bind_some]
  refine .imp (.bind (Json.nat64?_restores span.start)
    (.bind (Json.nat64?_restores span.stop) (.pure span))) ?_
  simp only [Span.Fits, and_true]

end Scalars

section Shapes

variable {α : Type} {read : Json → Option α} {item content : Json} {items : List Json} {span : Span}
  {value : α} {values : List α} {condition other : Prop}

theorem Json.spannedOf?_spanned (read : Json → Option α) (content : Json) (span : Span) :
    (Json.spanned content span).spannedOf? read =
      (do return (← read content, ← Span.ofJson? span.toJson)) := rfl

theorem Restores.spanned (restores : Restores (read content) value condition) (span : Span) :
    Restores ((Json.spanned content span).spannedOf? read) (value, span) (condition ∧ span.Fits) := by
  rw [Json.spannedOf?_spanned]
  refine .imp (.bind restores (.bind span.restores (.pure (value, span)))) ?_
  simp only [and_true]

/-- Past the shape of a node, its span is the first thing read. -/
theorem Restores.node {next : Json × Span → Option α}
    (rest : Restores (next (content, span)) value condition) :
    Restores ((Json.spanned content span).spannedOf? some >>= next) value (span.Fits ∧ condition) := by
  refine .imp (.bind (.spanned (.pure content) span) rest) ?_
  simp only [true_and]

theorem Restores.nil (read : Json → Option α) :
    Restores ((Json.arr []).listOf? read) [] True := .pure []

theorem Restores.cons (first : Restores (read item) value condition)
    (rest : Restores ((Json.arr items).listOf? read) values other) :
    Restores ((Json.arr (item :: items)).listOf? read) (value :: values) (condition ∧ other) := by
  rw [Json.listOf?, List.mapM_cons]
  refine .imp (.bind first (.bind rest (.pure (value :: values)))) ?_
  simp only [and_true]

theorem Restores.optional (restores : Restores (read content) value condition)
    (present : content ≠ .null) : Restores (content.optional? read) (some value) condition := by
  have same : content.optional? read = read content >>= fun value => some (some value) := by
    cases content with
    | null => exact absurd rfl present
    | bool | int | real | str | arr | obj => exact Option.map_eq_bind
  rw [same]
  exact .imp (.bind restores (.pure (some value))) (by simp only [and_true])

end Shapes

theorem Ident.restores (ident : Ident) :
    Restores (Ident.ofJson? ident.toJson) ident ident.span.Fits := by
  refine .imp (.bind (.spanned (.pure ident.name) ident.span) (.pure ident)) ?_
  simp only [and_true, true_and]

theorem Json.callOf?_restores {read : Json → Option Expr} {items : List Json} {callee : Ident}
    {args : List Expr} {condition : Prop}
    (restores : Restores ((Json.arr items).listOf? read) args condition) :
    Restores (Json.callOf? read (.obj [("name", callee.toJson), ("args", .arr items)]))
      (callee, args) (callee.span.Fits ∧ condition) := by
  refine .imp (.given rfl (.bind callee.restores (.bind restores (.pure (callee, args))))) ?_
  simp only [and_true]

-- The induction is on the tree; the depth that reading may use is at least that of the data, which
-- has more of it than the data of any part.
mutual

theorem Expr.restores (expr : Expr) (depth : Nat)
    (deep : (expr.toJson Literal.toJson).depth ≤ depth) :
    Restores (Expr.ofJson? depth (expr.toJson Literal.toJson)) expr
      (Leaf.All Leaf.Restorable expr.leaves) := by
  have positive := (expr.toJson Literal.toJson).depth_pos
  obtain ⟨rest, rfl⟩ : ∃ rest, depth = rest + 1 := ⟨depth - 1, by omega⟩
  cases expr with
  | number literal span =>
    refine .imp (.node (.given rfl (.bind literal.restores (.pure _)))) ?_
    simp [Expr.leaves, Leaf.Restorable]
  | text value span =>
    refine .imp (.node (.given rfl (.given rfl (.pure _)))) ?_
    simp [Expr.leaves, Leaf.Restorable]
  | var name span =>
    refine .imp (.node (.given rfl (.given rfl (.pure _)))) ?_
    simp [Expr.leaves, Leaf.Restorable]
  | unary op operand span =>
    simp only [Expr.toJson, Json.spanned, Json.tag, Json.depth, Json.depthFields] at deep
    have inner := operand.restores rest (by omega)
    refine .imp (.node (.given rfl (.given rfl (.bind op.restores (.bind inner (.pure _)))))) ?_
    simp [Expr.leaves, Leaf.Restorable]
  | binary left op right span =>
    simp only [Expr.toJson, Json.spanned, Json.tag, Json.depth, Json.depthFields] at deep
    have first := left.restores rest (by omega)
    have second := right.restores rest (by omega)
    refine .imp (.node (.given rfl (.given rfl
      (.bind first (.bind op.restores (.bind second (.pure _))))))) ?_
    simp [Expr.leaves, Leaf.Restorable]
  | relational left op right span =>
    simp only [Expr.toJson, Json.spanned, Json.tag, Json.depth, Json.depthFields] at deep
    have first := left.restores rest (by omega)
    have second := right.restores rest (by omega)
    refine .imp (.node (.given rfl (.given rfl
      (.bind first (.bind op.restores (.bind second (.pure _))))))) ?_
    simp [Expr.leaves, Leaf.Restorable]
  | call callee args span =>
    simp only [Expr.toJson, Json.spanned, Json.call, Json.tag, Json.depth, Json.depthFields] at deep
    have inner := Expr.restoresIn args rest (by omega)
    refine .imp (.node (.given rfl (.bind (Json.callOf?_restores inner) (.pure _)))) ?_
    simp [Expr.leaves, Leaf.Restorable]

theorem Expr.restoresIn (args : List Expr) (depth : Nat)
    (deep : Json.depthItems (Expr.listToJson Literal.toJson args) ≤ depth) :
    Restores ((Json.arr (Expr.listToJson Literal.toJson args)).listOf? (Expr.ofJson? depth)) args
      (Leaf.All Leaf.Restorable (Expr.leavesIn args)) := by
  cases args with
  | nil => exact .imp (.nil _) (by simp [leavesIn])
  | cons first others =>
    simp only [Expr.listToJson, Json.depthItems] at deep
    have head := first.restores depth (by omega)
    have tail := Expr.restoresIn others depth (by omega)
    exact .imp (.cons head tail) (by simp [leavesIn])

end

theorem Json.statementsOf?_restores {read : Json → Option Stmt} {items : List Json}
    {body : List Stmt} {condition : Prop}
    (restores : Restores ((Json.arr items).listOf? read) body condition) :
    Restores ((Json.statements items).statementsOf? read) body condition :=
  .given rfl restores

theorem Stmt.toJson_ne_null (stmt : Stmt) : stmt.toJson Literal.toJson ≠ .null := by
  cases stmt <;> simp [Stmt.toJson, Json.spanned]

mutual

theorem Stmt.restores (stmt : Stmt) (depth : Nat)
    (deep : (stmt.toJson Literal.toJson).depth ≤ depth) :
    Restores (Stmt.ofJson? depth (stmt.toJson Literal.toJson)) stmt
      (Leaf.All Leaf.Restorable stmt.leaves) := by
  have positive := (stmt.toJson Literal.toJson).depth_pos
  obtain ⟨rest, rfl⟩ : ∃ rest, depth = rest + 1 := ⟨depth - 1, by omega⟩
  cases stmt with
  | compound body span =>
    simp only [Stmt.toJson, Json.spanned, Json.tag, Json.statements, Json.depth,
      Json.depthFields] at deep
    have inner := Json.statementsOf?_restores (Stmt.restoresIn body rest (by omega))
    refine .imp (.node (.given rfl (.bind inner (.pure _)))) ?_
    simp [Stmt.leaves, Leaf.Restorable]
  | assign target value span =>
    simp only [Stmt.toJson, Json.spanned, Json.tag, Json.depth, Json.depthFields] at deep
    have inner := value.restores rest (by omega)
    refine .imp (.node (.given rfl (.given rfl (.bind target.restores (.bind inner (.pure _)))))) ?_
    simp [Stmt.leaves, Leaf.Restorable]
  | call callee args span =>
    simp only [Stmt.toJson, Json.spanned, Json.call, Json.tag, Json.depth, Json.depthFields] at deep
    have inner := Expr.restoresIn args rest (by omega)
    refine .imp (.node (.given rfl (.bind (Json.callOf?_restores inner) (.pure _)))) ?_
    simp [Stmt.leaves, Leaf.Restorable]
  | ifThen cond branch span =>
    simp only [Stmt.toJson, Json.spanned, Json.tag, Json.depth, Json.depthFields] at deep
    have first := cond.restores rest (by omega)
    have second := branch.restores rest (by omega)
    refine .imp (.node (.given rfl (.given rfl
      (.bind first (.bind second (.given rfl (.pure _))))))) ?_
    simp [Stmt.leaves, Leaf.Restorable]
  | ifElse cond branch otherwise span =>
    simp only [Stmt.toJson, Json.spanned, Json.tag, Json.depth, Json.depthFields] at deep
    have first := cond.restores rest (by omega)
    have second := branch.restores rest (by omega)
    have third := (otherwise.restores rest (by omega)).optional otherwise.toJson_ne_null
    refine .imp (.node (.given rfl (.given rfl
      (.bind first (.bind second (.bind third (.pure _))))))) ?_
    simp [Stmt.leaves, Leaf.Restorable]
  | repeatUntil body cond span =>
    simp only [Stmt.toJson, Json.spanned, Json.tag, Json.statements, Json.depth,
      Json.depthFields] at deep
    have first := Json.statementsOf?_restores (Stmt.restoresIn body rest (by omega))
    have second := cond.restores rest (by omega)
    refine .imp (.node (.given rfl (.given rfl (.bind first (.bind second (.pure _)))))) ?_
    simp [Stmt.leaves, Leaf.Restorable]
  | empty span =>
    refine .imp (.node (.given rfl (.pure _))) ?_
    simp [Stmt.leaves, Leaf.Restorable]

theorem Stmt.restoresIn (body : List Stmt) (depth : Nat)
    (deep : Json.depthItems (Stmt.listToJson Literal.toJson body) ≤ depth) :
    Restores ((Json.arr (Stmt.listToJson Literal.toJson body)).listOf? (Stmt.ofJson? depth)) body
      (Leaf.All Leaf.Restorable (Stmt.leavesIn body)) := by
  cases body with
  | nil => exact .imp (.nil _) (by simp [leavesIn])
  | cons first others =>
    simp only [Stmt.listToJson, Json.depthItems] at deep
    have head := first.restores depth (by omega)
    have tail := Stmt.restoresIn others depth (by omega)
    exact .imp (.cons head tail) (by simp [leavesIn])

end

theorem Param.restores (param : Param) :
    Restores (Param.ofJson? param.toJson) param param.name.span.Fits := by
  refine .imp (.given rfl (.bind param.name.restores (.bind param.type.restores (.pure _)))) ?_
  simp only [and_true]

theorem Param.restoresIn (params : List Param) :
    Restores ((Json.arr (params.map Param.toJson)).listOf? Param.ofJson?) params
      (Leaf.All Leaf.Restorable (params.map fun param => .span param.name.span)) := by
  induction params with
  | nil => exact .imp (.nil _) (by simp)
  | cons first others ih => exact .imp (.cons first.restores ih) (by simp [Leaf.Restorable])

theorem VarType.restores_optional (result : Option VarType) :
    Restores (((result.map VarType.toJson).getD .null).optional? VarType.ofJson?) result True := by
  cases result with
  | none => exact .pure none
  | some type => exact type.restores.optional (by cases type <;> simp [VarType.toJson])

theorem Json.blockOf?_restores {depth : Nat} {read : Json → Option Decl} {items : List Json}
    {declarations : List Decl} {condition : Prop}
    (restores : Restores ((Json.arr items).listOf? read) declarations condition) (body : List Stmt)
    (deep : Json.depthItems (Stmt.listToJson Literal.toJson body) ≤ depth) :
    Restores ((Json.block items (Stmt.listToJson Literal.toJson body)).blockOf? depth read)
      ⟨declarations, body⟩ (condition ∧ Leaf.All Leaf.Restorable (Stmt.leavesIn body)) := by
  have statements := Json.statementsOf?_restores (Stmt.restoresIn body depth deep)
  refine .imp (.given rfl (.bind restores (.bind statements (.pure _)))) ?_
  simp only [and_true]

mutual

theorem Decl.restores (decl : Decl) (depth : Nat)
    (deep : (decl.toJson Literal.toJson).depth ≤ depth) :
    Restores (Decl.ofJson? depth (decl.toJson Literal.toJson)) decl
      (Leaf.All Leaf.Restorable decl.leaves) := by
  have positive := (decl.toJson Literal.toJson).depth_pos
  obtain ⟨rest, rfl⟩ : ∃ rest, depth = rest + 1 := ⟨depth - 1, by omega⟩
  cases decl with
  | var name type =>
    refine .imp (.given rfl (.bind (Param.restores ⟨name, type⟩) (.pure _))) ?_
    simp [Decl.leaves, Leaf.Restorable]
  | routine heading declarations body =>
    simp only [Decl.toJson, Json.tag, Json.block, Json.statements, Json.depth,
      Json.depthFields] at deep
    have inner := Decl.restoresIn declarations rest (by omega)
    have block := Json.blockOf?_restores inner body (show _ ≤ rest by omega)
    refine .imp (.given rfl (.given rfl (.bind heading.name.restores
      (.bind (Param.restoresIn heading.params) (.bind (VarType.restores_optional heading.result)
        (.bind heading.span.restores (.bind block (.pure _)))))))) ?_
    simp [Decl.leaves, Heading.leaves, Leaf.Restorable]

theorem Decl.restoresIn (declarations : List Decl) (depth : Nat)
    (deep : Json.depthItems (Decl.listToJson Literal.toJson declarations) ≤ depth) :
    Restores
      ((Json.arr (Decl.listToJson Literal.toJson declarations)).listOf? (Decl.ofJson? depth))
      declarations (Leaf.All Leaf.Restorable (Decl.leavesIn declarations)) := by
  cases declarations with
  | nil => exact .imp (.nil _) (by simp [leavesIn])
  | cons first others =>
    simp only [Decl.listToJson, Json.depthItems] at deep
    have head := first.restores depth (by omega)
    have tail := Decl.restoresIn others depth (by omega)
    exact .imp (.cons head tail) (by simp [leavesIn])

end

/-- Data of a program gives back the program exactly when every offset in it fits and every real is
finite, and otherwise no program at all. -/
theorem Program.restores (program : Program) :
    Restores (Program.ofJson? program.toJson) program
      (Leaf.All Leaf.Restorable program.leaves) := by
  have deep : max (Json.depthItems (Decl.listToJson Literal.toJson program.block.declarations))
      (Json.depthItems (Stmt.listToJson Literal.toJson program.block.body)) ≤
        program.toJson.depth := by
    simp only [Program.toJson, Program.toJsonWith, Block.toJson, Json.block, Json.statements,
      Json.depth, Json.depthFields]
    omega
  have inner := Decl.restoresIn program.block.declarations program.toJson.depth (by omega)
  have block := Json.blockOf?_restores inner program.block.body
    (show _ ≤ program.toJson.depth by omega)
  refine .imp (.given rfl (.bind program.name.restores (.bind block (.pure _)))) ?_
  simp [Program.leaves, Leaf.Restorable]

end MiniPascal
