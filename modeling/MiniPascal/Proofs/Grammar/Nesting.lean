import MiniPascal.Proofs.Grammar.Nodes

namespace MiniPascal

/-- One span lies inside another. -/
def Span.Inside (inner outer : Span) : Prop := outer.start ≤ inner.start ∧ inner.stop ≤ outer.stop

/-- One span stops before another starts, with something between them. -/
def Span.Precedes (first second : Span) : Prop := first.stop < second.start

/-- Lexemes in source order that do not overlap. -/
structure Lexeme.Spread (lexemes : List Lexeme) : Prop where
  apart : lexemes.Pairwise fun first second =>
    first.span.start < second.span.start ∧ first.span.stop ≤ second.span.start
  forward : ∀ lexeme ∈ lexemes, lexeme.span.start ≤ lexeme.span.stop

/-- The statement behind the last keyword of a branching statement. -/
def Node.lastBranch? : Node → Option Stmt
  | .stmt (.ifThen _ branch _) => some branch
  | .stmt (.ifElse _ _ otherwise _) => some otherwise
  | _ => none

/-- A branching statement ends in its last branch, and in whatever that ends in. -/
inductive Node.EndsIn (whole : Node) : Stmt → Prop where
  | branch {stmt : Stmt} (last : whole.lastBranch? = some stmt) : EndsIn whole stmt
  | deeper {branch stmt : Stmt} (ends : EndsIn whole branch)
    (last : (Node.stmt branch).lastBranch? = some stmt) : EndsIn whole stmt

/-- The nodes below a node, at any depth. -/
inductive Node.Below (whole : Node) : Node → Prop where
  | part {below : Node} (member : below ∈ whole.parts) : Below whole below
  | deeper {node below : Node} (above : Below whole node) (member : below ∈ node.parts) :
    Below whole below

/-- The parts of a node that stand side by side: the statements of a list, the arguments of a call,
or the two branches of a statement. -/
def Node.row : Node → List Node
  | .expr (.call _ args _) | .stmt (.call _ args _) => args.map .expr
  | .stmt (.compound body _) | .stmt (.repeatUntil body _ _) | .routine _ _ body => body.map .stmt
  | .stmt (.ifElse _ branch otherwise _) => [.stmt branch, .stmt otherwise]
  | _ => []

/-- In source order, and apart. -/
abbrev Node.InOrder (nodes : List Node) : Prop :=
  nodes.Pairwise fun first second => first.span.Precedes second.span

section Parts

variable {slice front lexemes : List Lexeme} {next following : Lexeme} {whole node below : Node}
  {stmt : Stmt} {span : Span}

theorem infix_of_concat {α : Type} {front slice : List α} {following next : α}
    (within : front ++ [following] <:+: slice ++ [next]) : front <:+: slice := by
  rcases List.infix_concat_iff.mp within with last | inside
  · rcases List.suffix_concat_iff.mp last with none | ⟨others, same, suffix⟩
    · simp at none
    · obtain ⟨rfl, -⟩ := List.append_inj' same rfl
      exact suffix.isInfix
  · exact (List.prefix_append front [following]).isInfix.trans inside

theorem Expr.stmt_not_mem_parts (expr : Expr) : Node.stmt stmt ∉ (Node.expr expr).parts := by
  cases expr <;> simp [Node.parts]

/-- A last branch has the same lexeme behind it as the whole. -/
theorem Node.Located.lastBranch (located : whole.Located slice next)
    (last : whole.lastBranch? = some stmt) : ∃ front, stmt.Located front next := by
  cases whole with
  | ident | expr | routine => cases last
  | stmt outer =>
    have located : outer.Located slice next := located
    cases located with
    | compound | assign | bareCall | call | repeatUntil | empty => cases last
    | ifThen _ _ _ built =>
      cases last
      exact ⟨_, built⟩
    | ifElse _ _ _ _ _ built =>
      cases last
      exact ⟨_, built⟩

theorem Node.EndsIn.located (ends : whole.EndsIn stmt) (located : whole.Located slice next) :
    ∃ front, stmt.Located front next := by
  induction ends with
  | branch last => exact located.lastBranch last
  | @deeper branch stmt ends last ih =>
    obtain ⟨front, built⟩ := ih
    have built : (Node.stmt branch).Located front next := built
    exact built.lastBranch last

/-- A statement inside a node has a lexeme of the node behind it, unless it is the last branch. -/
theorem Node.Located.inner (located : whole.Located slice next)
    (member : .stmt stmt ∈ whole.parts) :
    (Node.stmt stmt).StandsIn slice ∨ whole.lastBranch? = some stmt := by
  cases whole with
  | ident ident => cases member
  | expr expr => exact absurd member expr.stmt_not_mem_parts
  | stmt outer =>
    have located : outer.Located slice next := located
    cases located with
    | compound block extent =>
      obtain ⟨inner, listed, ⟨⟩⟩ := List.mem_map.mp member
      obtain ⟨front, following, built, within⟩ := block.mem listed
      exact .inl ⟨front, following, built, within⟩
    | assign | bareCall | empty => simp [Node.parts] at member
    | call => simp [Node.parts] at member
    | ifThen =>
      obtain rfl : stmt = _ := by simpa [Node.parts] using member
      exact .inr rfl
    | @ifElse slice others further keyword mark middle _ cond branch otherwise span ifs tests thens
        built elses builtElse extent =>
      have member : stmt = branch ∨ stmt = otherwise := by simpa [Node.parts] using member
      rcases member with rfl | rfl
      · exact .inl ⟨others, middle, built, keyword :: (slice ++ [mark]), further, by simp⟩
      · exact .inr rfl
    | @repeatUntil slice others keyword mark _ body cond span repeats list untils tests extent =>
      have listed : stmt ∈ body := by simpa [Node.parts] using member
      obtain ⟨front, following, built, within⟩ := list.mem listed
      exact .inl ⟨front, following, built, within.trans ⟨[keyword], others, by simp⟩⟩
  | routine heading declarations body =>
    have located : Decl.Located slice next (.routine heading declarations body) := located
    cases located with
    | @routine kind slice others further keyword lexeme semicolon _ name params result block span
        keys shows parameters results ends built extent =>
      have among : .stmt stmt ∈ block.nodes := by
        simpa [Node.parts, Block.nodes] using member
      refine .inl ((built.mem among).mono ?_)
      exact ⟨keyword :: lexeme :: (slice ++ (others ++ [semicolon])), [], by simp⟩

theorem Node.mem_parts_of_lastBranch? (last : whole.lastBranch? = some stmt) :
    .stmt stmt ∈ whole.parts := by
  unfold lastBranch? at last
  split at last
  · cases last
    simp [parts]
  · cases last
    simp [parts]
  · cases last

/-- What a node ends in is below it. -/
theorem Node.Below.of_endsIn (ends : whole.EndsIn stmt) : whole.Below (.stmt stmt) := by
  induction ends with
  | branch last => exact .part (mem_parts_of_lastBranch? last)
  | deeper ends last ih => exact ih.deeper (mem_parts_of_lastBranch? last)

theorem Node.Below.parts_ne_nil (under : whole.Below below) : whole.parts ≠ [] := by
  induction under with
  | part member => exact List.ne_nil_of_mem member
  | deeper above member ih => exact ih

theorem Node.Below.standsIn (located : whole.Located slice next) (under : whole.Below below) :
    below.StandsIn (slice ++ [next]) := by
  induction under with
  | part member => exact located.part member
  | deeper above member ih =>
    obtain ⟨front, following, built, within⟩ := ih
    exact (built.part member).mono within

/-- So it is at any depth: what has no lexeme of the node behind it is what the node ends in. -/
theorem Node.Below.inner (located : whole.Located slice next)
    (under : whole.Below (.stmt stmt)) : (Node.stmt stmt).StandsIn slice ∨ whole.EndsIn stmt := by
  generalize same : Node.stmt stmt = below at under
  induction under generalizing stmt with
  | part member =>
    subst same
    exact (located.inner member).imp_right .branch
  | @deeper node below above member ih =>
    subst same
    obtain ⟨front, following, built, within⟩ := above.standsIn located
    rcases built.inner member with stands | last
    · exact .inl (stands.mono (infix_of_concat within))
    -- Only a statement has a last branch, so where that statement stands is known already.
    cases node with
    | ident | expr | routine => cases last
    | stmt branch =>
      rcases ih rfl with ⟨front, following, built, within⟩ | ends
      · exact .inl ((Stmt.Located.part built member).mono within)
      · exact .inr (ends.deeper last)

end Parts

section Places

variable {slice front lexemes : List Lexeme} {mark next following : Lexeme}
  {whole node below : Node} {stmt : Stmt} {span : Span}

theorem Lexeme.Spread.sub (spread : Spread lexemes) (within : slice <:+: lexemes) : Spread slice :=
  ⟨spread.apart.sublist within.sublist, fun lexeme member =>
    spread.forward lexeme (within.subset member)⟩

/-- An extent goes around each of its lexemes. -/
theorem Lexeme.Extent.around (extent : Lexeme.Extent slice span) (spread : Lexeme.Spread slice)
    {lexeme : Lexeme} (member : lexeme ∈ slice) : lexeme.span.Inside span := by
  obtain ⟨first, last, starts, stops, rfl⟩ := extent
  constructor
  · obtain ⟨rest, rfl⟩ := List.head?_eq_some_iff.mp starts
    rcases List.mem_cons.mp member with rfl | later
    · exact Nat.le_refl _
    · exact Nat.le_of_lt (List.rel_of_pairwise_cons spread.apart later).1
  · obtain ⟨before, rfl⟩ := List.getLast?_eq_some_iff.mp stops
    rcases List.mem_append.mp member with earlier | final
    · have apart := (List.pairwise_append.mp spread.apart).2.2 _ earlier last (by simp)
      have forward := spread.forward last (by simp)
      exact Nat.le_trans apart.2 forward
    · rw [List.mem_singleton.mp final]

theorem Lexeme.Extent.inside {inner : Span} (extent : Lexeme.Extent slice span)
    (within : Lexeme.Extent front inner) (spread : Lexeme.Spread slice)
    (part : front <:+: slice) : inner.Inside span := by
  obtain ⟨first, last, starts, stops, rfl⟩ := within
  have start := extent.around spread (part.subset (List.mem_of_mem_head? starts))
  have stop := extent.around spread (part.subset (List.mem_of_getLast? stops))
  exact ⟨start.1, stop.2⟩

/-- A node stops before the lexeme that follows it. -/
theorem Node.Located.stops (located : node.Located slice next)
    (spread : Lexeme.Spread (slice ++ [next])) : node.span.stop ≤ next.span.start := by
  rcases located.extent with ⟨first, last, -, stops, same⟩ | ⟨-, rfl⟩
  · have apart := (List.pairwise_append.mp spread.apart).2.2 last (List.mem_of_getLast? stops) next
      (by simp)
    rw [same]
    exact apart.2
  · exact Nat.le_refl _

/-- A node starts where a lexeme does. -/
theorem Node.StandsIn.starts (stands : node.StandsIn lexemes) :
    ∃ lexeme ∈ lexemes, node.span.start = lexeme.span.start := by
  obtain ⟨slice, next, located, within⟩ := stands
  rcases located.extent with ⟨first, last, starts, -, same⟩ | ⟨-, rfl⟩
  · refine ⟨first, within.subset ?_, by rw [same]⟩
    exact List.mem_append_left _ (List.mem_of_mem_head? starts)
  · exact ⟨next, within.subset (by simp), rfl⟩

theorem Node.StandsIn.inside (stands : node.StandsIn slice) (extent : Lexeme.Extent slice span)
    (spread : Lexeme.Spread slice) : node.span.Inside span := by
  obtain ⟨front, following, located, within⟩ := stands
  rcases located.extent with inner | ⟨-, rfl⟩
  · exact extent.inside inner spread ((List.prefix_append _ _).isInfix.trans within)
  · have member : following ∈ slice := within.subset (by simp)
    have around := extent.around spread member
    have forward := spread.forward following member
    exact ⟨around.1, Nat.le_trans forward around.2⟩

theorem Node.Located.extent_of_parts (located : whole.Located slice next)
    (parts : whole.parts ≠ []) : Lexeme.Extent slice whole.span := by
  rcases located.extent with extent | ⟨-, rfl⟩
  · exact extent
  · exact absurd rfl parts

/-- An empty statement in which a node ends is the point where the lexeme behind the node starts. -/
theorem Node.EndsIn.point (ends : whole.EndsIn (.empty span)) (located : whole.Located slice next) :
    span = .point next.span.start := by
  obtain ⟨front, empty⟩ := ends.located located
  cases empty
  rfl

/-- A node lies inside every node that it is below, unless it is an empty statement in which that
one ends: then it lies behind. -/
theorem Node.Below.inside (located : whole.Located slice next) (under : whole.Below below)
    (spread : Lexeme.Spread (slice ++ [next])) :
    below.span.Inside whole.span ∨ ∃ span, below = .stmt (.empty span) ∧
      whole.EndsIn (.empty span) ∧ whole.span.stop ≤ span.start := by
  obtain ⟨front, following, built, within⟩ := under.standsIn located
  have part : front <:+: slice := infix_of_concat within
  have inner : Lexeme.Spread slice := spread.sub (List.prefix_append _ _).isInfix
  have extent : Lexeme.Extent slice whole.span := located.extent_of_parts under.parts_ne_nil
  rcases built.extent with nonempty | ⟨-, rfl⟩
  · exact .inl (extent.inside nonempty inner part)
  · rcases under.inner located with stands | ends
    · exact .inl (stands.inside extent inner)
    · have place := congrArg Span.start (ends.point located)
      exact .inr ⟨_, rfl, ends, (located.stops spread).trans_eq place.symm⟩

/-- What stands behind a separator starts behind it. -/
theorem Node.StandsIn.behind (stands : node.StandsIn lexemes)
    (spread : Lexeme.Spread (mark :: lexemes)) : mark.span.start < node.span.start := by
  obtain ⟨lexeme, member, same⟩ := stands.starts
  rw [same]
  exact (List.rel_of_pairwise_cons spread.apart member).1

theorem Node.Located.precedes (located : node.Located slice mark) (later : below.StandsIn lexemes)
    (spread : Lexeme.Spread (slice ++ mark :: lexemes)) : node.span.Precedes below.span := by
  have before : Lexeme.Spread (slice ++ [mark]) := spread.sub ⟨[], lexemes, by simp⟩
  have after : Lexeme.Spread (mark :: lexemes) := spread.sub (List.suffix_append _ _).isInfix
  exact Nat.lt_of_le_of_lt (located.stops before) (later.behind after)

end Places

section Rows

variable {α : Type} {separator left right : Mark} {Item : List Lexeme → Lexeme → α → Prop}
  {slice lexemes : List Lexeme} {next : Lexeme} {items : List α} {toNode : α → Node}

/-- Items with separators between them are in order. -/
theorem Listed.inOrder (list : Listed separator Item slice next items)
    (placed : ∀ {front following item}, Item front following item →
      (toNode item).Located front following)
    (spread : Lexeme.Spread (slice ++ [next])) : Node.InOrder (items.map toNode) := by
  induction list with
  | one built => exact List.pairwise_singleton _ _
  | @more slice others mark next item items built separates rest ih =>
    have spread : Lexeme.Spread (slice ++ mark :: (others ++ [next])) := by simpa using spread
    have later : Lexeme.Spread (others ++ [next]) := spread.sub ⟨slice ++ [mark], [], by simp⟩
    refine List.pairwise_cons.mpr ⟨?_, ih later⟩
    intro node member
    obtain ⟨other, listed, rfl⟩ := List.mem_map.mp member
    obtain ⟨front, following, stands, within⟩ := rest.mem listed
    exact (placed built).precedes ⟨front, following, placed stands, within⟩ spread

theorem Enclosed.inOrder (list : Enclosed left separator right Item slice items)
    (placed : ∀ {front following item}, Item front following item →
      (toNode item).Located front following)
    (spread : Lexeme.Spread slice) : Node.InOrder (items.map toNode) := by
  cases list with
  | @mk slice opening closing _ opens list closes =>
    exact list.inOrder placed (spread.sub ⟨[opening], [], by simp⟩)

theorem Parenthesized.inOrder (list : Parenthesized separator Item slice items)
    (placed : ∀ {front following item}, Item front following item →
      (toNode item).Located front following)
    (spread : Lexeme.Spread slice) : Node.InOrder (items.map toNode) := by
  cases list with
  | none => exact .nil
  | some enclosed => exact enclosed.inOrder placed spread

theorem Block.Located.inOrder {block : Block} (located : Block.Located Decl.Located slice block)
    (spread : Lexeme.Spread slice) : Node.InOrder (block.body.map .stmt) := by
  cases located with
  | @mk slice others further vars nested body declared routines compound =>
    exact compound.inOrder (fun built => built) (spread.sub ⟨slice ++ others, [], by simp⟩)

theorem Node.row_withSpan (span : Span) (expr : Expr) :
    (Node.expr (expr.withSpan span)).row = (Node.expr expr).row := by
  cases expr <;> rfl

theorem Expr.Located.inOrder {slice : List Lexeme} {next : Lexeme} {expr : Expr}
    (located : expr.Located slice next) (spread : Lexeme.Spread slice) :
    Node.InOrder (Node.expr expr).row := by
  cases located with
  | number | text | var | unary | binary | relational => exact .nil
  | @call slice lexeme next name args span shows arguments extent =>
    exact arguments.inOrder (fun built => built) (spread.sub ⟨[lexeme], [], by simp⟩)
  | @parentheses slice opening closing _ inner span opens built closes extent =>
    rw [Node.row_withSpan]
    exact built.inOrder (spread.sub ⟨[opening], [closing], by simp⟩)
termination_by slice.length

theorem Stmt.Located.inOrder {stmt : Stmt} (located : stmt.Located slice next)
    (spread : Lexeme.Spread (slice ++ [next])) : Node.InOrder (Node.stmt stmt).row := by
  have own : Lexeme.Spread slice := spread.sub (List.prefix_append _ _).isInfix
  cases located with
  | assign | ifThen | empty => exact .nil
  | bareCall => exact .nil
  | compound block extent => exact block.inOrder (fun built => built) own
  | @call slice lexeme _ name args span shows arguments extent =>
    exact arguments.inOrder (fun built => built) (own.sub ⟨[lexeme], [], by simp⟩)
  | @ifElse slice others further keyword mark middle _ cond branch otherwise span ifs tests thens
      built elses builtElse extent =>
    have built : (Node.stmt branch).Located others middle := built
    have later : (Node.stmt otherwise).StandsIn (further ++ [next]) :=
      ⟨further, next, builtElse, List.infix_refl _⟩
    have spread : Lexeme.Spread (others ++ middle :: (further ++ [next])) :=
      spread.sub ⟨keyword :: (slice ++ [mark]), [], by simp⟩
    exact List.pairwise_pair.mpr (built.precedes later spread)
  | @repeatUntil slice others keyword mark _ body cond span repeats list untils tests extent =>
    refine list.inOrder (fun built => built) (own.sub ⟨[keyword], others, by simp⟩)

/-- The parts of a node that stand side by side are in order. -/
theorem Node.Located.inOrder {node : Node} (located : node.Located slice next)
    (spread : Lexeme.Spread (slice ++ [next])) : Node.InOrder node.row := by
  have own : Lexeme.Spread slice := spread.sub (List.prefix_append _ _).isInfix
  cases node with
  | ident ident => exact .nil
  | expr expr => exact Expr.Located.inOrder located own
  | stmt stmt => exact Stmt.Located.inOrder located spread
  | routine heading declarations body =>
    have located : Decl.Located slice next (.routine heading declarations body) := located
    cases located with
    | @routine kind slice others further keyword lexeme semicolon _ name params result block span
        keys shows parameters results ends built extent =>
      refine built.inOrder (own.sub ?_)
      exact ⟨keyword :: lexeme :: (slice ++ (others ++ [semicolon])), [], by simp⟩

end Rows

end MiniPascal
