import MiniPascal.Proofs.Run.Writes

namespace MiniPascal

open MiniPascal.Action

/-- The assignment at a point has its value, and makes this write. -/
inductive Assigns (config : Config) : Point → Write → Prop where
  | intro {fuel target code span machine value after write}
    (run : eval (activate config fuel) code machine = .ok value after)
    (stored : after.store.write? after.current target.name value = some write) :
    Assigns config ⟨fuel, .stmt (.assign target code span), machine⟩ write

/-- Somewhere in the run an assignment stores this value in the variable of this name of the
outermost block: that is what its target means by the text around it. -/
inductive AssignsGlobal (config : Config) (program : Program) (fuel : Nat) (sink : Sink) :
    String → Value → Prop where
  | intro {depth target code span machine value after level around type stored}
    (reached : Reached config program fuel sink ⟨depth, .stmt (.assign target code span), machine⟩)
    (placed : Point.Placed program ⟨depth, .stmt (.assign target code span), machine⟩ level around)
    (means : resolveVar (level :: around) target.name = some (around.length, type))
    (run : eval (activate config depth) code machine = .ok value after)
    (converted : value.coerce? type = some stored) :
    AssignsGlobal config program fuel sink target.name stored

section

variable {config : Config} {program : Program} {fuel : Nat} {sink : Sink} {point next : Point}
  {log : List Write} {write : Write}

theorem Begins.unique {closure : Closure} {args : List Value} {before begun other : Machine}
    (begins : Begins config closure args before begun)
    (again : Begins config closure args before other) : begun = other := by
  obtain ⟨frame, framed, declared⟩ := begins.declared
  obtain ⟨frame', framed', declared'⟩ := again.declared
  obtain rfl : frame = frame' := Except.ok.inj (framed.symm.trans framed')
  exact (ok_unique declared declared').2

/-- What a part of a task writes, the task writes. -/
theorem Step.writes (step : Step config point next) (writes : point.Writes config log) :
    ∃ part, next.Writes config part ∧ part ⊆ log := by
  cases writes with
  | stmts first run later =>
    cases step with
    | first => exact ⟨_, first, List.subset_append_left _ _⟩
    | rest other =>
      obtain ⟨-, rfl⟩ := ok_unique run other
      exact ⟨_, later, List.subset_append_right _ _⟩
  | compound inside =>
    cases step
    exact ⟨_, inside, List.Subset.refl _⟩
  | assign source run stored =>
    cases step
    exact ⟨_, source, List.subset_append_left _ _⟩
  | routine invokes found arguments run body =>
    cases invokes with
    | stmt =>
      cases step with
      | stmtArgs other =>
        obtain ⟨-, rfl⟩ := ok_unique found other
        exact ⟨_, arguments, List.subset_append_left _ _⟩
      | stmtCall other again =>
        obtain ⟨⟨⟩, rfl⟩ := ok_unique found other
        obtain ⟨rfl, rfl⟩ := ok_unique run again
        exact ⟨_, body, List.subset_append_right _ _⟩
    | expr =>
      cases step with
      | exprArgs other =>
        obtain ⟨-, rfl⟩ := ok_unique found other
        exact ⟨_, arguments, List.subset_append_left _ _⟩
      | exprCall other again =>
        obtain ⟨⟨⟩, rfl⟩ := ok_unique found other
        obtain ⟨rfl, rfl⟩ := ok_unique run again
        exact ⟨_, body, List.subset_append_right _ _⟩
    | name unbound visible =>
      cases step with
      | nameCall unbound other =>
        obtain ⟨⟨⟩, rfl⟩ := ok_unique found other
        cases run
        exact ⟨_, body, List.subset_append_right _ _⟩
  | builtin invokes found arguments =>
    cases invokes with
    | stmt =>
      cases step with
      | stmtArgs other =>
        obtain ⟨-, rfl⟩ := ok_unique found other
        exact ⟨_, arguments, List.Subset.refl _⟩
      | stmtCall other again => nomatch (ok_unique found other).1
    | expr =>
      cases step with
      | exprArgs other =>
        obtain ⟨-, rfl⟩ := ok_unique found other
        exact ⟨_, arguments, List.Subset.refl _⟩
      | exprCall other again => nomatch (ok_unique found other).1
    | name unbound visible =>
      cases step with
      | nameCall unbound other => nomatch (ok_unique found other).1
  | ifThenTaken tested run taken =>
    cases step with
    | ifThenCond => exact ⟨_, tested, List.subset_append_left _ _⟩
    | ifThenBranch other =>
      obtain ⟨-, rfl⟩ := ok_unique run other
      exact ⟨_, taken, List.subset_append_right _ _⟩
  | ifThenSkipped tested run =>
    cases step with
    | ifThenCond => exact ⟨_, tested, List.Subset.refl _⟩
    | ifThenBranch other => nomatch (ok_unique run other).1
  | ifElseTaken tested run taken =>
    cases step with
    | ifElseCond => exact ⟨_, tested, List.subset_append_left _ _⟩
    | ifElseBranch other =>
      obtain ⟨-, rfl⟩ := ok_unique run other
      exact ⟨_, taken, List.subset_append_right _ _⟩
    | ifElseOtherwise other => nomatch (ok_unique run other).1
  | ifElseOther tested run taken =>
    cases step with
    | ifElseCond => exact ⟨_, tested, List.subset_append_left _ _⟩
    | ifElseBranch other => nomatch (ok_unique run other).1
    | ifElseOtherwise other =>
      obtain ⟨-, rfl⟩ := ok_unique run other
      exact ⟨_, taken, List.subset_append_right _ _⟩
  | loop rounds =>
    cases step
    exact ⟨_, rounds, List.Subset.refl _⟩
  | lastRound inside run tested last =>
    cases step with
    | roundBody => exact ⟨_, inside, List.subset_append_left _ _⟩
    | roundCond other =>
      obtain ⟨-, rfl⟩ := ok_unique run other
      exact ⟨_, tested, List.subset_append_right _ _⟩
    | nextRound other again =>
      obtain ⟨-, rfl⟩ := ok_unique run other
      nomatch (ok_unique last again).1
  | nextRound inside run tested again later =>
    rw [List.append_assoc]
    cases step with
    | roundBody => exact ⟨_, inside, List.subset_append_left _ _⟩
    | roundCond other =>
      obtain ⟨-, rfl⟩ := ok_unique run other
      exact ⟨_, tested, List.subset_append_of_subset_right _ (List.subset_append_left _ _)⟩
    | nextRound other further =>
      obtain ⟨-, rfl⟩ := ok_unique run other
      obtain ⟨-, rfl⟩ := ok_unique again further
      exact ⟨_, later, List.subset_append_of_subset_right _ (List.subset_append_right _ _)⟩
  | read bound =>
    cases step with
    | nameCall unbound found =>
      rw [bound] at unbound
      cases unbound
  | unary inside =>
    cases step
    exact ⟨_, inside, List.Subset.refl _⟩
  | binary first run second =>
    cases step with
    | left => exact ⟨_, first, List.subset_append_left _ _⟩
    | right other =>
      obtain ⟨-, rfl⟩ := ok_unique run other
      exact ⟨_, second, List.subset_append_right _ _⟩
  | relational first run second =>
    cases step with
    | comparedLeft => exact ⟨_, first, List.subset_append_left _ _⟩
    | comparedRight other =>
      obtain ⟨-, rfl⟩ := ok_unique run other
      exact ⟨_, second, List.subset_append_right _ _⟩
  | exprs first run later =>
    cases step with
    | firstExpr => exact ⟨_, first, List.subset_append_left _ _⟩
    | restExprs other =>
      obtain ⟨-, rfl⟩ := ok_unique run other
      exact ⟨_, later, List.subset_append_right _ _⟩
  | enter begins inside =>
    cases step with
    | enter other =>
      obtain rfl := begins.unique other
      exact ⟨_, inside, List.Subset.refl _⟩
  | noStmts | empty | number | text | noExprs => cases step

/-- A run that completes has made every write that an assignment in it makes. -/
theorem Reached.assigns_mem {start : Machine}
    (declared : declareAll program.block.declarations
      ⟨.initial, sink, [.runStart program.name.name]⟩ = .ok () start)
    (writes : Point.Writes config ⟨fuel, .stmts program.block.body, start⟩ log)
    (reached : Reached config program fuel sink point) (assigns : Assigns config point write) :
    write ∈ log := by
  have part : ∃ part, point.Writes config part ∧ part ⊆ log := by
    clear assigns
    induction reached with
    | start distinct opened =>
      obtain ⟨-, rfl⟩ := ok_unique declared opened
      exact ⟨log, writes, List.Subset.refl log⟩
    | step reached step ih =>
      obtain ⟨part, within, listed⟩ := ih
      obtain ⟨piece, inside, among⟩ := step.writes within
      exact ⟨piece, inside, List.Subset.trans among listed⟩
  obtain ⟨part, within, listed⟩ := part
  cases assigns with
  | intro run stored =>
    cases within with
    | assign source again taken =>
      obtain ⟨rfl, rfl⟩ := ok_unique run again
      obtain rfl : write = _ := Option.some.inj (stored.symm.trans taken)
      exact listed (List.mem_append_right _ List.mem_cons_self)
    | routine invokes => cases invokes
    | builtin invokes => cases invokes

/-- What a task of a run writes, an assignment of the run writes. -/
theorem Point.Writes.assigned (writes : point.Writes config log)
    (reached : Reached config program fuel sink point) (listed : write ∈ log) :
    ∃ point, Reached config program fuel sink point ∧ Assigns config point write := by
  induction writes with
  | noStmts | empty | number | text | read | noExprs => cases listed
  | stmts first run later ih ih' =>
    rcases List.mem_append.mp listed with early | late
    · exact ih (reached.step .first) early
    · exact ih' (reached.step (.rest run)) late
  | compound inside ih => exact ih (reached.step .compound) listed
  | assign source run stored ih =>
    rcases List.mem_append.mp listed with early | last
    · exact ih (reached.step .assigned) early
    · obtain rfl := List.mem_singleton.mp last
      exact ⟨_, reached, .intro run stored⟩
  | routine invokes found arguments run body ih ih' =>
    rcases List.mem_append.mp listed with early | late
    · rcases invokes.evaluates found with rfl | step
      · cases arguments with
        | noExprs => cases early
        | routine invokes => cases invokes
        | builtin invokes => cases invokes
      · exact ih (reached.step step) early
    · exact ih' (reached.step (invokes.enters found run)) late
  | builtin invokes found arguments ih =>
    rcases invokes.evaluates found with rfl | step
    · cases arguments with
      | noExprs => cases listed
      | routine invokes => cases invokes
      | builtin invokes => cases invokes
    · exact ih (reached.step step) listed
  | ifThenTaken tested run taken ih ih' =>
    rcases List.mem_append.mp listed with early | late
    · exact ih (reached.step .ifThenCond) early
    · exact ih' (reached.step (.ifThenBranch run)) late
  | ifThenSkipped tested run ih => exact ih (reached.step .ifThenCond) listed
  | ifElseTaken tested run taken ih ih' =>
    rcases List.mem_append.mp listed with early | late
    · exact ih (reached.step .ifElseCond) early
    · exact ih' (reached.step (.ifElseBranch run)) late
  | ifElseOther tested run taken ih ih' =>
    rcases List.mem_append.mp listed with early | late
    · exact ih (reached.step .ifElseCond) early
    · exact ih' (reached.step (.ifElseOtherwise run)) late
  | loop rounds ih => exact ih (reached.step .loop) listed
  | lastRound inside run tested last ih ih' =>
    rcases List.mem_append.mp listed with early | late
    · exact ih (reached.step .roundBody) early
    · exact ih' (reached.step (.roundCond run)) late
  | nextRound inside run tested again later ih ih' further =>
    rcases List.mem_append.mp listed with round | late
    · rcases List.mem_append.mp round with early | middle
      · exact ih (reached.step .roundBody) early
      · exact ih' (reached.step (.roundCond run)) middle
    · exact further (reached.step (.nextRound run again)) late
  | unary inside ih => exact ih (reached.step .operand) listed
  | binary first run second ih ih' =>
    rcases List.mem_append.mp listed with early | late
    · exact ih (reached.step .left) early
    · exact ih' (reached.step (.right run)) late
  | relational first run second ih ih' =>
    rcases List.mem_append.mp listed with early | late
    · exact ih (reached.step .comparedLeft) early
    · exact ih' (reached.step (.comparedRight run)) late
  | exprs first run later ih ih' =>
    rcases List.mem_append.mp listed with early | late
    · exact ih (reached.step .firstExpr) early
    · exact ih' (reached.step (.restExprs run)) late
  | enter begins inside ih => exact ih (reached.step (.enter begins)) listed

/-- Among the blocks around a place, the outermost one is the last. -/
theorem Program.Nests.outermost {levels : List Level} {level : Level} {out : Nat}
    (nests : program.Nests levels) (found : levels[out]? = some level) :
    level.heading = none ↔ out + 1 = levels.length := by
  induction nests generalizing out with
  | whole =>
    cases out with
    | zero =>
      cases found
      exact ⟨fun _ => rfl, fun _ => rfl⟩
    | succ out => simp at found
  | @routine inner around routine nests declared ih =>
    cases out with
    | zero =>
      cases found
      simp [Routine.level]
    | succ out =>
      simp only [ih found, List.length_cons]
      omega

/-- Where the code of nested blocks executes, what an assignment writes is what the text says: the
scope is the global one exactly if the name means a variable of the outermost block. -/
theorem Machine.Executes.write? {machine : Machine} {level : Level} {around : List Level}
    {name : String} {value : Value} (executes : machine.Executes (level :: around))
    (nests : program.Nests (level :: around)) :
    machine.store.write? machine.current name value = some write ∧ write.owner = 0 ↔
      ∃ type stored, resolveVar (level :: around) name = some (around.length, type) ∧
        value.coerce? type = some stored ∧ write = ⟨0, name, stored⟩ := by
  rw [Store.write?, executes.binding? name]
  cases resolves : resolveVar (level :: around) name with
  | none => simp
  | some found =>
    obtain ⟨out, type⟩ := found
    obtain ⟨owner, home, atOwner, atHome, ⟨_, _, activates⟩, -⟩ := executes.resolved resolves
    obtain ⟨holder, scope, binding, atHolder, -, -, typed, held⟩ := executes.bindingAt? resolves
    obtain rfl : holder = owner := Option.some.inj (atHolder.symm.trans atOwner)
    have global : holder = 0 ↔ out = around.length := by
      rw [← activates.outermost, nests.outermost atHome, List.length_cons, Nat.add_right_cancel_iff]
    simp only [Option.bind_some, held, typed, Option.map_eq_some_iff, Option.some.injEq,
      Prod.mk.injEq]
    constructor
    · rintro ⟨⟨stored, converted, rfl⟩, atGlobal⟩
      obtain rfl : holder = 0 := atGlobal
      exact ⟨type, stored, ⟨global.mp rfl, rfl⟩, converted, rfl⟩
    · rintro ⟨_, stored, ⟨outermost, rfl⟩, converted, rfl⟩
      obtain rfl : holder = 0 := global.mpr outermost
      exact ⟨⟨stored, converted, rfl⟩, rfl⟩

/-- The log of a run that completes tells which values were stored in the variables of the outermost
block. -/
theorem Point.Writes.global_iff {start : Machine} {name : String} {stored : Value}
    (distinct : program.block.duplicate? = none)
    (declared : declareAll program.block.declarations
      ⟨.initial, sink, [.runStart program.name.name]⟩ = .ok () start)
    (writes : Point.Writes config ⟨fuel, .stmts program.block.body, start⟩ log) :
    ⟨0, name, stored⟩ ∈ log ↔ AssignsGlobal config program fuel sink name stored := by
  constructor
  · intro listed
    obtain ⟨point, reached, assigns⟩ := writes.assigned (.start distinct declared) listed
    cases assigns with
    | intro run taken =>
      obtain ⟨level, around, placed⟩ := reached.placed
      have executes := placed.executes.after_eval run
      obtain ⟨type, value, means, converted, same⟩ :=
        (executes.write? placed.nests).mp ⟨taken, rfl⟩
      cases same
      exact .intro reached placed means run converted
  · rintro ⟨reached, placed, means, run, converted⟩
    have executes := placed.executes.after_eval run
    obtain ⟨taken, -⟩ := (executes.write? placed.nests).mpr ⟨_, _, means, converted, rfl⟩
    exact reached.assigns_mem declared writes (.intro run taken)

end

end MiniPascal
