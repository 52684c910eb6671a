import MiniPascal.Proofs.Parse.Takes
import MiniPascal.Proofs.Grammar.Derives

namespace MiniPascal

/-- A token that may stand behind a factor. -/
abbrev Token.EndsFactor (token : Token) : Prop := token ≠ .mark .leftParen

abbrev Token.EndsTerm (token : Token) : Prop := token.EndsFactor ∧ Parser.productOp? token = none

abbrev Token.EndsExpr (token : Token) : Prop := token.EndsTerm ∧ Parser.sumOp? token = none

/-- A token that begins every factor it stands first in. -/
def Token.startsFactor : Token → Bool
  | .mark .plus | .mark .minus | .mark .leftParen => true
  | .integer _ | .real _ | .text _ | .ident _ => true
  | _ => false

theorem Derives.factor_start {tokens : List Token} {expr : Expr}
    (derived : Derives .factor tokens expr) :
    ∃ first rest, tokens = first :: rest ∧ first.startsFactor = true := by
  cases derived with
  | sign op _ => exact ⟨_, _, rfl, by cases op <;> rfl⟩
  | _ => exact ⟨_, _, rfl, rfl⟩

theorem Chained.start {ops : List BinaryOp} {Operand : List Token → Expr → Prop}
    (starts : Token → Bool) {tokens : List Token} {expr : Expr}
    (chained : Chained ops Operand tokens expr)
    (start : ∀ tokens expr, Operand tokens expr →
      ∃ first rest, tokens = first :: rest ∧ starts first = true) :
    ∃ first rest, tokens = first :: rest ∧ starts first = true := by
  induction chained with
  | operand read => exact start _ _ read
  | operator _ _ _ ih =>
    obtain ⟨first, rest, rfl, begins⟩ := ih
    exact ⟨first, _, rfl, begins⟩

theorem Separated.start {α : Type} {separator : Mark} {Item : List Token → α → Prop}
    (starts : Token → Bool) {tokens : List Token} {items : List α}
    (list : Separated separator Item tokens items)
    (start : ∀ tokens item, Item tokens item →
      ∃ first rest, tokens = first :: rest ∧ starts first = true) :
    ∃ first rest, tokens = first :: rest ∧ starts first = true := by
  cases list with
  | one read => exact start _ _ read
  | more read _ =>
    obtain ⟨first, rest, rfl, begins⟩ := start _ _ read
    exact ⟨first, _, rfl, begins⟩

theorem Derives.expr_start {tokens : List Token} {expr : Expr} (derived : Derives .expr tokens expr) :
    ∃ first rest, tokens = first :: rest ∧ first.startsFactor = true := by
  cases derived with
  | expr chained =>
    refine chained.start _ fun _ _ read => ?_
    cases read with
    | term inner => exact inner.start _ fun _ _ read => read.factor_start

namespace Parser

theorem sepBy_takes {α γ : Type} {separator : Mark} {tree : α → γ} {Item : List Token → γ → Prop}
    {item : Parser α} {bound : Nat} {next : Token} (ends : next ≠ .mark separator)
    (takes : ∀ tokens result, Item tokens result → tokens.length < bound →
      ∀ token, token = .mark separator ∨ token = next → Takes item tokens token (tree · = result))
    {tokens : List Token} {results : List γ} (list : Separated separator Item tokens results)
    (short : tokens.length < bound) {fuel : Nat} (enough : tokens.length < fuel) :
    Takes (sepBy separator item fuel) tokens next (List.map tree · = results) := by
  induction list generalizing fuel with
  | @one tokens result read =>
    obtain ⟨fuel, rfl⟩ := Nat.exists_eq_succ_of_ne_zero (Nat.ne_zero_of_lt enough)
    unfold sepBy
    rw [← List.append_nil tokens]
    refine (takes tokens result read short _ (Or.inr rfl)).bind fun first same => ?_
    exact .leave ends (.pure (by rw [List.map_singleton, same]))
  | @more tokens others result results read _ ih =>
    obtain ⟨fuel, rfl⟩ := Nat.exists_eq_succ_of_ne_zero (Nat.ne_zero_of_lt enough)
    simp only [List.length_append, List.length_cons] at short enough
    unfold sepBy
    refine (takes tokens result read (by omega) _ (Or.inl rfl)).bind fun first same => .eat ?_
    rw [← List.append_nil others]
    refine (ih (by omega) (by omega)).bind fun rest sames => .pure ?_
    rw [List.map_cons, same, sames]

/-- The loop over operators passes a chain, with fuel for what comes after it. -/
theorem chain_takes {ops : List BinaryOp} {operator? : Token → Option BinaryOp}
    {operand : Parser Expr} {Operand : List Token → Expr → Prop} {bound : Nat} {next : Token}
    {good : Expr → Prop} (operators : ∀ op ∈ ops, operator? (.mark op.mark) = some op)
    (takes : ∀ tokens expr, Operand tokens expr → tokens.length < bound →
      ∀ token, token = next ∨ (∃ op ∈ ops, token = .mark op.mark) →
        Takes operand tokens token (·.bare = expr))
    {tokens : List Token} {expr : Expr} (chained : Chained ops Operand tokens expr)
    (short : tokens.length < bound) {fuel : Nat} (enough : tokens.length < fuel) {rest : List Token}
    (follows : rest.headD next = next ∨ ∃ op ∈ ops, rest.headD next = .mark op.mark)
    (goesOn : ∀ left spare, left.bare = expr → fuel ≤ spare + tokens.length →
      Takes (chain operator? operand spare left) rest next good) :
    Takes (operand >>= chain operator? operand fuel) (tokens ++ rest) next good := by
  induction chained generalizing rest with
  | @operand tokens expr read =>
    refine (takes tokens expr read short _ follows).bind fun left same => ?_
    exact goesOn left fuel same (by omega)
  | @operator tokens others left op right chained member read ih =>
    simp only [List.length_append, List.length_cons] at short enough
    rw [List.append_assoc, List.cons_append]
    refine ih (by omega) (by omega) (Or.inr ⟨op, member, rfl⟩) fun result spare same room => ?_
    obtain ⟨spare, rfl⟩ : ∃ less, spare = less + 1 := ⟨spare - 1, by omega⟩
    unfold chain
    refine .peek ?_
    rw [List.headD_cons, operators op member]
    refine .advance fun _ _ => ?_
    refine (takes others right read (by omega) _ follows).bind fun second same' => ?_
    refine goesOn _ spare ?_ (by simp only [List.length_append, List.length_cons]; omega)
    rw [Expr.bare, same, same']

theorem productOp?_mark {op : BinaryOp} (member : op ∈ BinaryOp.products) :
    productOp? (.mark op.mark) = some op := by
  simp only [BinaryOp.products, List.mem_cons, List.not_mem_nil, or_false] at member
  rcases member with rfl | rfl | rfl <;> rfl

theorem sumOp?_mark {op : BinaryOp} (member : op ∈ BinaryOp.sums) : sumOp? (.mark op.mark) = some op := by
  simp only [BinaryOp.sums, List.mem_cons, List.not_mem_nil, or_false] at member
  rcases member with rfl | rfl <;> rfl

theorem relationalOp?_mark (op : RelationalOp) : relationalOp? (.mark op.mark) = some op := by
  cases op <;> rfl

theorem chain_ends {operator? : Token → Option BinaryOp} {operand : Parser Expr} {next : Token}
    {good : Expr → Prop} {left : Expr} (fine : good left) (ends : operator? next = none) {fuel : Nat}
    (positive : 0 < fuel) : Takes (chain operator? operand fuel left) [] next good := by
  obtain ⟨fuel, rfl⟩ := Nat.exists_eq_succ_of_ne_zero (Nat.ne_zero_of_lt positive)
  unfold chain
  refine .peek ?_
  rw [List.headD_nil, ends]
  exact .pure fine

/-- A rule for factors that passes those with fewer tokens than a bound. -/
def TakesFactors (bound : Nat) (factor : Parser Expr) : Prop :=
  ∀ tokens expr next, Derives .factor tokens expr → tokens.length < bound → next.EndsFactor →
    Takes factor tokens next (·.bare = expr)

theorem product_takes {fuel : Nat} {factor : Parser Expr} (takes : TakesFactors fuel factor)
    {tokens : List Token} {expr : Expr} {next : Token} (derived : Derives .term tokens expr)
    (short : tokens.length < fuel) (ends : next.EndsTerm) :
    Takes (product fuel factor) tokens next (·.bare = expr) := by
  cases derived with
  | term chained =>
    rw [← List.append_nil tokens]
    refine chain_takes (fun _ => productOp?_mark) ?_ chained short short (Or.inl rfl) ?_
    · rintro others operand read bounded token (rfl | ⟨op, member, rfl⟩)
      · exact takes _ _ _ read bounded ends.1
      · refine takes _ _ _ read bounded ?_
        cases op <;> simp [Token.EndsFactor, BinaryOp.mark]
    · intro left spare same room
      have positive : 0 < spare := by omega
      refine chain_ends ?_ ends.2 positive
      exact same

theorem sum_takes {fuel : Nat} {factor : Parser Expr} (takes : TakesFactors fuel factor)
    {tokens : List Token} {expr : Expr} {next : Token} (derived : Derives .expr tokens expr)
    (short : tokens.length < fuel) (ends : next.EndsExpr) :
    Takes (sum fuel factor) tokens next (·.bare = expr) := by
  cases derived with
  | expr chained =>
    rw [← List.append_nil tokens]
    refine chain_takes (fun _ => sumOp?_mark) ?_ chained short short (Or.inl rfl) ?_
    · rintro others operand read bounded token (rfl | ⟨op, member, rfl⟩)
      · exact product_takes takes read bounded ends.1
      · refine product_takes takes read bounded ?_
        simp only [BinaryOp.sums, List.mem_cons, List.not_mem_nil, or_false] at member
        rcases member with rfl | rfl <;> exact ⟨by simp [Token.EndsFactor, BinaryOp.mark], rfl⟩
    · intro left spare same room
      have positive : 0 < spare := by omega
      refine chain_ends ?_ ends.2 positive
      exact same

theorem arguments_takes {fuel : Nat} {factor : Parser Expr} (takes : TakesFactors fuel factor)
    {tokens : List Token} {args : List Expr} {next : Token} (derived : Derives .arguments tokens args)
    (short : tokens.length ≤ fuel) :
    Takes (arguments fuel (sum fuel factor)) tokens next (Expr.bareAll · = args) := by
  cases derived with
  | noArguments => exact .expect (.eat (.pure rfl))
  | @someArguments tokens args list =>
    simp only [List.length_append, List.length_cons, List.length_nil] at short
    obtain ⟨first, rest, rfl, begins⟩ := list.start _ fun _ _ read => read.expr_start
    have other : first ≠ .mark .rightParen := by
      rintro rfl
      exact absurd begins (by decide)
    refine .expect (.leave other ?_)
    have items : ∀ tokens expr, Derives .expr tokens expr → tokens.length < fuel → ∀ token,
        token = .mark .comma ∨ token = .mark .rightParen →
        Takes (sum fuel factor) tokens token (·.bare = expr) := by
      rintro tokens expr read bounded _ (rfl | rfl)
      · exact sum_takes takes read bounded (by decide)
      · exact sum_takes takes read bounded (by decide)
    have bounded : (first :: rest).length < fuel := by omega
    refine (sepBy_takes (by simp) items list bounded bounded).bind fun results same => .expect (.pure ?_)
    rw [Expr.bareAll_eq_map, same]

theorem factor_takes (fuel : Nat) : TakesFactors fuel (factor fuel) := by
  induction fuel with
  | zero => exact fun _ _ _ _ short => absurd short (Nat.not_lt_zero _)
  | succ fuel ih =>
    intro tokens expr next derived short ends
    refine .here fun start => .peek ?_
    cases derived with
    | @sign op tokens operand read =>
      simp only [List.length_cons, Nat.add_lt_add_iff_right] at short
      cases op with
      | plus =>
        refine .advance fun _ _ => ?_
        rw [← List.append_nil tokens]
        exact (ih tokens operand next read short ends).bind fun result same => .pure (by rw [Expr.bare, same])
      | minus =>
        refine .advance fun _ _ => ?_
        rw [← List.append_nil tokens]
        exact (ih tokens operand next read short ends).bind fun result same => .pure (by rw [Expr.bare, same])
    | integer => exact .advance fun _ _ => .pure rfl
    | real => exact .advance fun _ _ => .pure rfl
    | text => exact .advance fun _ _ => .pure rfl
    | @parentheses tokens expr read =>
      simp only [List.length_cons, List.length_append, List.length_nil] at short
      refine .advance fun _ _ => ?_
      refine (sum_takes ih read (by omega) (by decide : (Token.mark .rightParen).EndsExpr)).bind ?_
      intro inner same
      exact .expect (.previous fun span => .pure (by rw [Expr.withSpan_bare, same]))
    | var =>
      refine .ident fun ident same => .sees ?_
      rw [if_neg (by simpa [Token.EndsFactor] using ends)]
      exact .pure (by rw [Expr.bare, same])
    | @callFactor name tokens args read =>
      refine .ident fun ident same => .sees ?_
      have opens : tokens.headD next = .mark .leftParen := by cases read <;> rfl
      rw [if_pos (by rw [opens]; exact beq_self_eq_true _), ← List.append_nil tokens]
      simp only [List.length_cons] at short
      refine (arguments_takes ih read (by omega)).bind fun args same' => .previous fun span => .pure ?_
      rw [Expr.bare, Ident.bare, same, same']

theorem expression_takes {fuel : Nat} {tokens : List Token} {expr : Expr} {next : Token}
    (derived : Derives .expr tokens expr) (short : tokens.length < fuel) (ends : next.EndsExpr) :
    Takes (expression fuel) tokens next (·.bare = expr) :=
  sum_takes (factor_takes fuel) derived short ends

theorem condition_takes {fuel : Nat} {tokens : List Token} {cond : Expr} {next : Token}
    (derived : Derives .condition tokens cond) (short : tokens.length < fuel) (ends : next.EndsExpr) :
    Takes (condition fuel) tokens next (·.bare = cond) := by
  cases derived with
  | @condition op tokens others left right readLeft readRight =>
    simp only [List.length_append, List.length_cons] at short
    have between : (Token.mark op.mark).EndsExpr := by cases op <;> decide
    refine (expression_takes readLeft (by omega) between).bind fun first same => .peek ?_
    rw [List.headD_cons, relationalOp?_mark]
    refine .advance fun _ _ => ?_
    rw [← List.append_nil others]
    refine (expression_takes readRight (by omega) ends).bind fun second same' => .pure ?_
    rw [Expr.bare, same, same']

end Parser

end MiniPascal
