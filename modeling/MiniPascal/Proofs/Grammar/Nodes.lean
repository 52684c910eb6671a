import MiniPascal.Proofs.Grammar.Located

namespace MiniPascal

/-- The parts of a program that have a span. -/
inductive Node where
  | ident (ident : Ident)
  | expr (expr : Expr)
  | stmt (stmt : Stmt)
  | routine (heading : Heading) (declarations : List Decl) (body : List Stmt)

def Node.span : Node → Span
  | .ident name => name.span
  | .expr tree => tree.span
  | .stmt tree => tree.span
  | .routine heading _ _ => heading.span

/-- The node of a declaration: of a variable, its name is the only one. -/
def Decl.node : Decl → Node
  | .var name _ => .ident name
  | .routine heading declarations body => .routine heading declarations body

def Block.nodes (block : Block) : List Node :=
  block.declarations.map Decl.node ++ block.body.map .stmt

/-- The nodes directly below a node. -/
def Node.parts : Node → List Node
  | .ident _ => []
  | .expr (.number _ _) | .expr (.text _ _) | .expr (.var _ _) => []
  | .expr (.unary _ operand _) => [.expr operand]
  | .expr (.binary left _ right _) | .expr (.relational left _ right _) => [.expr left, .expr right]
  | .expr (.call callee args _) | .stmt (.call callee args _) => .ident callee :: args.map .expr
  | .stmt (.compound body _) => body.map .stmt
  | .stmt (.assign target value _) => [.ident target, .expr value]
  | .stmt (.ifThen cond branch _) => [.expr cond, .stmt branch]
  | .stmt (.ifElse cond branch otherwise _) => [.expr cond, .stmt branch, .stmt otherwise]
  | .stmt (.repeatUntil body cond _) => .expr cond :: body.map .stmt
  | .stmt (.empty _) => []
  | .routine heading declarations body =>
    .ident heading.name :: (heading.params.map (.ident ·.name) ++ Block.nodes ⟨declarations, body⟩)

/-- The nodes of a program, at any depth. -/
inductive Program.HasNode (program : Program) : Node → Prop where
  | name : HasNode program (.ident program.name)
  | block {node : Node} (member : node ∈ program.block.nodes) : HasNode program node
  | part {node part : Node} (whole : HasNode program node) (member : part ∈ node.parts) :
    HasNode program part

/-- A node and what it is built from. -/
def Node.Located (slice : List Lexeme) (next : Lexeme) : Node → Prop
  | .ident name => name.Located slice next
  | .expr tree => tree.Located slice next
  | .stmt tree => tree.Located slice next
  | .routine heading declarations body =>
    Decl.Located slice next (.routine heading declarations body)

/-- A node is built from some of these lexemes, one of which follows. -/
def Node.StandsIn (lexemes : List Lexeme) (node : Node) : Prop :=
  ∃ slice next, node.Located slice next ∧ slice ++ [next] <:+: lexemes

section Parts

variable {α : Type} {separator left right : Mark} {Item : List Lexeme → Lexeme → α → Prop}
  {slice lexemes : List Lexeme} {lexeme next : Lexeme} {item : α} {items : List α}
  {whole below : Node}

theorem Node.StandsIn.mono {others : List Lexeme} (stands : whole.StandsIn lexemes)
    (within : lexemes <:+: others) : whole.StandsIn others := by
  obtain ⟨slice, next, located, inside⟩ := stands
  exact ⟨slice, next, located, inside.trans within⟩

/-- A name stands before another lexeme, whichever it is. -/
theorem Node.StandsIn.ident {name : String} {rest : List Lexeme}
    (shows : lexeme.token = .ident name) (more : rest ≠ []) (within : lexeme :: rest <:+: lexemes) :
    (Node.ident ⟨name, lexeme.span⟩).StandsIn lexemes := by
  obtain ⟨following, others, rfl⟩ := List.exists_cons_of_ne_nil more
  exact ⟨[lexeme], following, .mk shows, .trans ⟨[], others, rfl⟩ within⟩

theorem Listed.mem (list : Listed separator Item slice next items) (member : item ∈ items) :
    ∃ front following, Item front following item ∧ front ++ [following] <:+: slice ++ [next] := by
  induction list with
  | one built =>
    obtain rfl := List.mem_singleton.mp member
    exact ⟨_, _, built, List.infix_refl _⟩
  | @more slice others mark next first rest built separates list ih =>
    rcases List.mem_cons.mp member with rfl | later
    · exact ⟨_, _, built, [], others ++ [next], by simp⟩
    · obtain ⟨front, following, built, within⟩ := ih later
      exact ⟨_, _, built, within.trans ⟨slice ++ [mark], [], by simp⟩⟩

theorem Enclosed.mem (list : Enclosed left separator right Item slice items)
    (member : item ∈ items) :
    ∃ front following, Item front following item ∧ front ++ [following] <:+: slice := by
  cases list with
  | @mk slice opening closing _ opens list closes =>
    obtain ⟨front, following, built, within⟩ := list.mem member
    exact ⟨front, following, built, within.trans ⟨[opening], [], by simp⟩⟩

theorem Parenthesized.mem (list : Parenthesized separator Item slice items)
    (member : item ∈ items) :
    ∃ front following, Item front following item ∧ front ++ [following] <:+: slice := by
  cases list with
  | none => cases member
  | some enclosed => exact enclosed.mem member

theorem Parenthesized.ne_nil (list : Parenthesized separator Item slice items) : slice ≠ [] := by
  cases list with
  | none => exact List.cons_ne_nil _ _
  | some enclosed =>
    cases enclosed with
    | mk => exact List.cons_ne_nil _ _

theorem Terminated.mem (list : Terminated Item slice items) (member : item ∈ items) :
    ∃ front following, Item front following item ∧ front ++ [following] <:+: slice := by
  induction list with
  | none => cases member
  | @more slice others mark first rest built ends list ih =>
    rcases List.mem_cons.mp member with rfl | later
    · exact ⟨_, _, built, [], others, by simp⟩
    · obtain ⟨front, following, built, within⟩ := ih later
      exact ⟨_, _, built, within.trans ⟨slice ++ [mark], [], by simp⟩⟩

@[simp] theorem Expr.span_withSpan (span : Span) (expr : Expr) :
    (expr.withSpan span).span = span := by
  cases expr <;> rfl

theorem Node.parts_withSpan (span : Span) (expr : Expr) :
    (Node.expr (expr.withSpan span)).parts = (Node.expr expr).parts := by
  cases expr <;> rfl

theorem Node.standsIn_call {name : String} {args : List Expr}
    (shows : lexeme.token = .ident name)
    (arguments : Parenthesized .comma Expr.Located slice args)
    (member : below ∈ Node.ident ⟨name, lexeme.span⟩ :: args.map Node.expr) :
    below.StandsIn (lexeme :: slice) := by
  rcases List.mem_cons.mp member with rfl | later
  · exact .ident shows arguments.ne_nil (List.infix_refl _)
  · obtain ⟨arg, listed, rfl⟩ := List.mem_map.mp later
    obtain ⟨front, following, built, within⟩ := arguments.mem listed
    exact ⟨front, following, built, within.trans ⟨[lexeme], [], by simp⟩⟩

theorem Expr.Located.part {slice : List Lexeme} {next : Lexeme} {expr : Expr}
    (located : expr.Located slice next)
    (member : below ∈ (Node.expr expr).parts) : below.StandsIn (slice ++ [next]) := by
  cases located with
  | number | text | var => cases member
  | @unary slice sign _ op operand span signs built extent =>
    obtain rfl := List.mem_singleton.mp member
    exact ⟨_, _, built, [sign], [], by simp⟩
  | @binary slice others mark _ left right op span first operates second extent =>
    rcases List.mem_pair.mp member with rfl | rfl
    · exact ⟨_, _, first, [], others ++ [next], by simp⟩
    · exact ⟨_, _, second, slice ++ [mark], [], by simp⟩
  | @relational slice others mark _ left right op span first operates second extent =>
    rcases List.mem_pair.mp member with rfl | rfl
    · exact ⟨_, _, first, [], others ++ [next], by simp⟩
    · exact ⟨_, _, second, slice ++ [mark], [], by simp⟩
  | call shows arguments extent =>
    exact (Node.standsIn_call shows arguments member).mono ⟨[], [next], rfl⟩
  | @parentheses slice opening closing _ inner span opens built closes extent =>
    -- The parts are those of what is inside, which may be in parentheses again.
    rw [Node.parts_withSpan] at member
    exact (Expr.Located.part built member).mono ⟨[opening], [next], by simp⟩
termination_by slice.length

theorem Stmt.Located.part {stmt : Stmt} (located : stmt.Located slice next)
    (member : below ∈ (Node.stmt stmt).parts) : below.StandsIn (slice ++ [next]) := by
  cases located with
  | compound block extent =>
    obtain ⟨inner, listed, rfl⟩ := List.mem_map.mp member
    obtain ⟨front, following, built, within⟩ := block.mem listed
    exact ⟨front, following, built, within.trans (List.infix_append' [] slice [next])⟩
  | @assign slice lexeme mark _ name value span shows assigns built extent =>
    rcases List.mem_pair.mp member with rfl | rfl
    · exact .ident shows (List.cons_ne_nil mark _) (List.infix_refl _)
    · exact ⟨_, _, built, [lexeme, mark], [], by simp⟩
  | bareCall shows extent =>
    obtain rfl := List.mem_singleton.mp member
    exact .ident shows (List.cons_ne_nil next []) (List.infix_refl _)
  | call shows arguments extent =>
    exact (Node.standsIn_call shows arguments member).mono ⟨[], [next], rfl⟩
  | @ifThen slice others keyword mark _ cond branch span ifs tests thens built extent =>
    rcases List.mem_pair.mp member with rfl | rfl
    · exact ⟨_, _, tests, [keyword], others ++ [next], by simp⟩
    · exact ⟨_, _, built, keyword :: (slice ++ [mark]), [], by simp⟩
  | @ifElse slice others further keyword mark middle _ cond branch otherwise span ifs tests thens
      built elses builtElse extent =>
    simp only [Node.parts, List.mem_cons, List.not_mem_nil, or_false] at member
    rcases member with rfl | rfl | rfl
    · exact ⟨_, _, tests, [keyword], others ++ middle :: (further ++ [next]), by simp⟩
    · exact ⟨_, _, built, keyword :: (slice ++ [mark]), further ++ [next], by simp⟩
    · exact ⟨_, _, builtElse, keyword :: (slice ++ mark :: (others ++ [middle])), [], by simp⟩
  | @repeatUntil slice others keyword mark _ body cond span repeats list untils tests extent =>
    rcases List.mem_cons.mp member with rfl | later
    · exact ⟨_, _, tests, keyword :: (slice ++ [mark]), [], by simp⟩
    · obtain ⟨inner, listed, rfl⟩ := List.mem_map.mp later
      obtain ⟨front, following, built, within⟩ := list.mem listed
      exact ⟨front, following, built, within.trans ⟨[keyword], others ++ [next], by simp⟩⟩
  | empty => cases member

theorem Ident.Grouped.mem {names : List Ident} {type : VarType} {name : Ident}
    (grouped : Grouped slice next (names, type)) (member : name ∈ names) :
    (Node.ident name).StandsIn (slice ++ [next]) := by
  cases grouped with
  | @mk slice colon lexeme _ _ _ list colons types =>
    obtain ⟨front, following, built, within⟩ := list.mem member
    exact ⟨front, following, built, within.trans ⟨[], [lexeme, next], by simp⟩⟩

theorem Decl.Variables.mem {vars : List Decl} {decl : Decl} (declared : Variables slice vars)
    (member : decl ∈ vars) : decl.node.StandsIn slice := by
  cases declared with
  | absent => cases member
  | @present slice keyword groups opens list nonempty =>
    obtain ⟨⟨names, type⟩, group, among⟩ := List.mem_flatMap.mp member
    obtain ⟨name, named, rfl⟩ := List.mem_map.mp among
    obtain ⟨front, following, grouped, within⟩ := list.mem group
    exact (grouped.mem named).mono (within.trans ⟨[keyword], [], by simp⟩)

theorem Param.Located.mem {params : List Param} {param : Param} (located : Located slice params)
    (member : param ∈ params) : (Node.ident param.name).StandsIn slice := by
  cases located with
  | absent => cases member
  | present list =>
    obtain ⟨⟨names, type⟩, group, among⟩ := List.mem_flatMap.mp member
    obtain ⟨name, named, rfl⟩ := List.mem_map.mp among
    obtain ⟨front, following, grouped, within⟩ := list.mem group
    exact (grouped.mem named).mono within

theorem Decl.Located.node {decl : Decl} (located : decl.Located slice next) :
    decl.node.Located slice next := by
  cases located with
  | routine kind keys shows parameters results ends built extent =>
    exact .routine kind keys shows parameters results ends built extent

theorem Block.Located.mem {block : Block} (located : Block.Located Decl.Located slice block)
    (member : below ∈ block.nodes) : below.StandsIn slice := by
  cases located with
  | @mk slice others further vars nested body declared routines compound =>
    rcases List.mem_append.mp member with among | among
    · obtain ⟨decl, listed, rfl⟩ := List.mem_map.mp among
      rcases List.mem_append.mp listed with variable_ | routine
      · exact (declared.mem variable_).mono ⟨[], others ++ further, by simp⟩
      · obtain ⟨front, following, built, within⟩ := routines.mem routine
        exact ⟨front, following, built.node, within.trans ⟨slice, further, by simp⟩⟩
    · obtain ⟨stmt, listed, rfl⟩ := List.mem_map.mp among
      obtain ⟨front, following, built, within⟩ := compound.mem listed
      exact ⟨front, following, built, within.trans ⟨slice ++ others, [], by simp⟩⟩

theorem Decl.Located.part {decl : Decl} (located : decl.Located slice next)
    (member : below ∈ decl.node.parts) : below.StandsIn (slice ++ [next]) := by
  cases located with
  | @routine kind slice others further keyword lexeme semicolon _ name params result block span
      keys shows parameters results ends built extent =>
    rcases List.mem_cons.mp member with rfl | later
    · have more : slice ++ (others ++ semicolon :: further) ++ [next] ≠ [] := by simp
      exact .ident shows more ⟨[keyword], [], by simp⟩
    · rcases List.mem_append.mp later with among | among
      · obtain ⟨param, listed, rfl⟩ := List.mem_map.mp among
        refine (parameters.mem listed).mono ?_
        exact ⟨[keyword, lexeme], others ++ semicolon :: (further ++ [next]), by simp⟩
      · refine (built.mem among).mono ?_
        exact ⟨keyword :: lexeme :: (slice ++ (others ++ [semicolon])), [next], by simp⟩

/-- What a node is built from holds what its parts are built from. -/
theorem Node.Located.part (located : whole.Located slice next) (member : below ∈ whole.parts) :
    below.StandsIn (slice ++ [next]) := by
  cases whole with
  | ident ident => cases member
  | expr expr => exact Expr.Located.part located member
  | stmt stmt => exact Stmt.Located.part located member
  | routine heading declarations body => exact Decl.Located.part located member

theorem Program.Located.node {program : Program} (located : program.Located lexemes)
    (has : program.HasNode below) : below.StandsIn lexemes := by
  induction has with
  | name =>
    cases located with
    | @mk slice keyword lexeme semicolon dot last name block keys shows ends built dots finishes =>
      exact .ident shows (List.cons_ne_nil semicolon (slice ++ [dot, last]))
        ⟨[keyword], [], by simp⟩
  | block member =>
    cases located with
    | @mk slice keyword lexeme semicolon dot last name block keys shows ends built dots finishes =>
      exact (built.mem member).mono ⟨[keyword, lexeme, semicolon], [dot, last], by simp⟩
  | part whole member ih =>
    obtain ⟨slice, next, located, within⟩ := ih
    exact (located.part member).mono within

theorem Lexeme.extent_singleton (lexeme : Lexeme) : Lexeme.Extent [lexeme] lexeme.span :=
  ⟨lexeme, lexeme, rfl, rfl, rfl⟩

theorem Expr.Located.extent {expr : Expr} (located : expr.Located slice next) :
    Lexeme.Extent slice expr.span := by
  cases located with
  | number | text | var => exact Lexeme.extent_singleton _
  | unary _ _ extent | binary _ _ _ extent | relational _ _ _ extent | call _ _ extent =>
    exact extent
  | parentheses _ _ _ extent =>
    rw [Expr.span_withSpan]
    exact extent

/-- The span of a node is the extent of what it is built from, but for the empty statement. -/
theorem Node.Located.extent (located : whole.Located slice next) :
    Lexeme.Extent slice whole.span ∨
      slice = [] ∧ whole = .stmt (.empty (.point next.span.start)) := by
  cases whole with
  | ident ident =>
    obtain ⟨shows⟩ : ident.Located slice next := located
    exact .inl (Lexeme.extent_singleton _)
  | expr expr => exact .inl (Expr.Located.extent located)
  | stmt stmt =>
    have located : stmt.Located slice next := located
    cases located with
    | compound _ extent | assign _ _ _ extent | bareCall _ extent | call _ _ extent
    | ifThen _ _ _ _ extent | ifElse _ _ _ _ _ _ extent | repeatUntil _ _ _ _ extent =>
      exact .inl extent
    | empty => exact .inr ⟨rfl, rfl⟩
  | routine heading declarations body =>
    have located : Decl.Located slice next (.routine heading declarations body) := located
    cases located with
    | routine kind keys shows parameters results ends built extent => exact .inl extent

end Parts

end MiniPascal
