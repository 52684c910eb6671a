import MiniPascal.Proofs.Run.Origin
import MiniPascal.Proofs.Run.RecursionLimit
import MiniPascal.Proofs.Scope.Owners

namespace MiniPascal

open MiniPascal.Action

/-- Code sees the scope that declares the routine of a closure. -/
structure Machine.SeesHome (machine : Machine) (closure : Closure) : Prop where
  around : closure.home ∈ machine.chain
  declared : ∃ scope, machine.store.scope? closure.home = some scope ∧ closure ∈ scope.routines

section

variable {config : Config} {program : Program} {fuel depth : Nat} {sink : Sink} {point : Point}
  {machine after : Machine} {closure : Closure} {args : List Value} {name : String}

theorem Machine.Linked.seesHome (linked : machine.Linked)
    (visible : machine.store.routine? machine.current name = some closure) :
    machine.SeesHome closure := by
  obtain ⟨owner, member, found⟩ := List.exists_of_findSome?_eq_some visible
  obtain ⟨scope, atOwner, listed⟩ := Option.bind_eq_some_iff.mp found
  obtain ⟨same, atSame, sound⟩ := linked.scope_of_mem member
  obtain rfl : scope = same := Option.some.inj (atOwner.symm.trans atSame)
  have listed : closure ∈ scope.routines := List.mem_of_find?_eq_some listed
  have own : closure.home = owner := sound.owned closure listed
  exact ⟨own ▸ member, scope, own ▸ atOwner, listed⟩

theorem Machine.SeesHome.evolve {writable : List ScopeId} (sees : machine.SeesHome closure)
    (evolves : machine.store.Evolves writable after.store) : after.SeesHome closure := by
  obtain ⟨scope, atHome, listed⟩ := sees.declared
  obtain ⟨later, atLater, step, -⟩ := evolves.scope _ scope atHome
  exact ⟨Machine.chain_eq evolves ▸ sees.around, later, atLater, step.routines ▸ listed⟩

/-- An activation is refused for want of a routine only where the scope that declares it is gone. -/
theorem Machine.SeesHome.not_refuses (sees : machine.SeesHome closure) (name : String) :
    ¬ Refuses config closure args machine (.undefinedRoutine name) := by
  intro refuses
  cases refuses with
  | home gone =>
    obtain ⟨scope, atHome, -⟩ := sees.declared
    rw [gone] at atHome
    cases atHome
  | frame failed =>
    rcases Heading.frame_error failed with ⟨mismatch, same⟩ | ⟨⟨name, same⟩, -⟩
    · cases same
    · cases same

theorem Reached.linked (reached : Reached config program fuel sink point) :
    point.machine.Linked := by
  obtain ⟨level, around, placed⟩ := reached.placed
  exact placed.executes.linked

/-- A routine that is entered is the one that its name means, also after its arguments have been
evaluated. -/
theorem Reached.enters_visible
    (reached : Reached config program fuel sink ⟨depth, .enter closure args, machine⟩) :
    machine.store.routine? machine.current closure.name = some closure := by
  obtain ⟨level, around, placed⟩ := reached.placed
  obtain ⟨out, resolves, atHome, -⟩ := placed.enters closure args rfl
  rw [placed.executes.routine?, resolves]
  simp [atHome]

theorem Reached.enters_seesHome
    (reached : Reached config program fuel sink ⟨depth, .enter closure args, machine⟩) :
    machine.SeesHome closure :=
  reached.linked.seesHome reached.enters_visible

theorem Builtin.find?_eq_none : Builtin.find? name = none ↔
    ∀ builtin : Builtin, builtin.name.toList ≠ name.toList.map Char.toLower := by
  rw [Builtin.find?, List.find?_eq_none]
  constructor
  · intro other builtin
    have listed : builtin ∈ Builtin.all := by
      cases builtin
      decide
    simpa using other builtin listed
  · intro other builtin listed
    simpa using other builtin

theorem Invokes.stops_undefined {exprs : List Expr}
    (invokes : Invokes point.machine point.task name exprs)
    (hidden : point.machine.store.routine? point.machine.current name = none)
    (unknown : Builtin.find? name = none) :
    point.Stops config (.fault (.undefinedRoutine name)) := by
  obtain ⟨fuel, task, machine⟩ := point
  have failed : callee name exprs.length machine =
      .error (.fault (.undefinedRoutine name)) machine := by
    rw [callee_apply, hidden, unknown]
  cases invokes with
  | stmt => exact ⟨machine, by rw [exec, bind_of_error failed]⟩
  | expr => exact ⟨machine, by rw [eval, bind_of_error failed]⟩
  | name unbound visible => simp [hidden] at visible

/-- A run lacks a routine only where a call has a name that neither a visible routine nor a builtin
has. -/
theorem Program.run_undefined_iff :
    (program.run config fuel sink).outcome = .error (.fault (.undefinedRoutine name)) ↔
      ∃ point exprs, Reached config program fuel sink point ∧
        Invokes point.machine point.task name exprs ∧
        point.machine.store.routine? point.machine.current name = none ∧
        Builtin.find? name = none := by
  constructor
  · intro ended
    rcases Program.run_raised ended with ⟨other, -, same⟩ | ⟨point, reached, raises⟩
    · cases same
    rcases raises.classified with values | same | ⟨called, exprs, invokes, failed⟩ |
      ⟨depth, closure, args, machine, rfl, refuses⟩
    · cases values
    · cases same
    · rcases callee_cause failed with ⟨known, expected, same⟩ | ⟨same, hidden, unknown⟩
      · cases same
      · cases same
        exact ⟨point, exprs, reached, invokes, hidden, unknown⟩
    · exact absurd refuses (reached.enters_seesHome.not_refuses name)
  · rintro ⟨point, exprs, reached, invokes, hidden, unknown⟩
    exact reached.stops (invokes.stops_undefined hidden unknown)

end

/-- The scope that declares a routine lives wherever the routine is found. In a run it is the scope in
which the code executes or one around it, when the name is looked up and still after any arguments
have been evaluated; so an activation itself never lacks its routine, and a run lacks one exactly
where it comes to a call by a name that no visible routine has, nor, in small letters, a builtin. The
same holds of scopes worked on one operation at a time, given up in any order, as long as each
routine is declared with its own scope as the owner. -/
theorem routine_homes_alive (config : Config) (program : Program) (fuel : Nat) (sink : Sink) :
    (∀ point name closure, Reached config program fuel sink point →
      point.machine.store.routine? point.machine.current name = some closure →
        point.machine.SeesHome closure ∧ ∀ depth args,
          ((evalAll (activate config depth) args).final point.machine).SeesHome closure) ∧
    (∀ depth closure args machine after name,
      Reached config program fuel sink ⟨depth + 1, .enter closure args, machine⟩ →
        machine.SeesHome closure ∧
        ¬ Refuses config closure args machine (.undefinedRoutine name) ∧
        (activate config (depth + 1) closure args machine =
            .error (.fault (.undefinedRoutine name)) after →
          ∃ begun last, Begins config closure args machine begun ∧
            execAll (activate config depth) depth closure.routine.block.body begun =
              .error (.fault (.undefinedRoutine name)) last)) ∧
    (∀ name, (program.run config fuel sink).outcome = .error (.fault (.undefinedRoutine name)) ↔
      ∃ point args, Reached config program fuel sink point ∧
        Invokes point.machine point.task name args ∧
        point.machine.store.routine? point.machine.current name = none ∧
        ∀ builtin : Builtin, builtin.name.toList ≠ name.toList.map Char.toLower) ∧
    ∀ graph : ScopeGraph, graph.ReachableOwned →
      (∀ id name closure, graph.alive id = true → graph.store.routine? id name = some closure →
        closure.home ∈ graph.store.chain id ∧ graph.alive closure.home = true) ∧
      ∀ id name next found owner,
        graph.step id (.resolve name) = .ok (next, .routine (some (found, owner))) →
          found = name ∧ owner.isSome = true := by
  refine ⟨?_, ?_, ?_, ?_⟩
  · intro point name closure reached visible
    have sees := reached.linked.seesHome visible
    refine ⟨sees, fun depth args => ?_⟩
    have confined := evalAll_confined (activate_confined config depth) args reached.linked
    exact sees.evolve confined
  · intro depth closure args machine after name reached
    have sees := reached.enters_seesHome
    refine ⟨sees, sees.not_refuses name, fun failed => ?_⟩
    exact (activate_error failed).resolve_left (sees.not_refuses name)
  · intro name
    rw [Program.run_undefined_iff]
    simp only [Builtin.find?_eq_none]
  · intro graph reachable
    exact ⟨fun id name closure alive => reachable.home_alive alive,
      fun id name next found owner => reachable.resolve_owner⟩

/-- The procedure of a program is found from its statements. In a graph, the scope `outer` is given up
but lives on in the one inside it, which still finds the routine of `outer`. -/
theorem routine_homes_alive_givenUp :
    (∃ machine closure, Reached ⟨1⟩ endless 2 (.empty none) ⟨2, .stmts endless.block.body, machine⟩ ∧
      machine.store.routine? machine.current "Again" = some closure ∧ machine.SeesHome closure) ∧
    ∃ (graph : ScopeGraph) (closure : Closure), graph.ReachableOwned ∧ graph.held 1 = false ∧
      graph.store.routine? 2 "P" = some closure ∧ closure.home = 1 ∧
      graph.alive closure.home = true := by
  obtain ⟨homes, -, -, graphs⟩ := routine_homes_alive ⟨1⟩ endless 2 (.empty none)
  have start := @Reached.start ⟨1⟩ endless 2 (.empty none) _ (by decide) (by cbv)
  have outer := @ScopeGraph.ReachableOwned.step _ _ 0 (.child "outer") _ .initial trivial rfl
  have owns := @ScopeGraph.ReachableOwned.step _ _ 1 (.declareRoutine "P" 1) _ outer rfl rfl
  have inner := @ScopeGraph.ReachableOwned.step _ _ 1 (.child "inner") _ owns trivial rfl
  have given := @ScopeGraph.ReachableOwned.step _ _ 1 .drop _ inner trivial rfl
  refine ⟨⟨_, _, start, rfl, (homes _ "Again" _ start rfl).1⟩, _, _, given, rfl, rfl, rfl, ?_⟩
  exact ((graphs _ given).1 2 "P" _ rfl rfl).2

end MiniPascal
