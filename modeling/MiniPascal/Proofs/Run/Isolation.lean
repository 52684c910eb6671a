import MiniPascal.Proofs.Run.Lexical

namespace MiniPascal

/-- Whatever code executes at a point of a run, and however it ends, the scopes that exist there only
evolve, and only those that the code sees do. The body of a routine that the code calls writes,
among them, only to the scope that declares the routine and to those around it. -/
theorem activations_isolated {config : Config} {program : Program} {fuel : Nat} {sink : Sink}
    {point : Point} (reached : Reached config program fuel sink point) :
    (∀ depth rounds stmt, point.machine.store.Evolves point.machine.chain
      ((Action.exec (Action.activate config depth) rounds stmt).final point.machine).store) ∧
    (∀ depth expr, point.machine.store.Evolves point.machine.chain
      ((Action.eval (Action.activate config depth) expr).final point.machine).store) ∧
    ∀ depth name closure args,
      point.machine.store.routine? point.machine.current name = some closure →
        closure.home ∈ point.machine.chain ∧
        point.machine.store.Evolves (point.machine.store.chain closure.home)
          ((Action.activate config depth closure args).final point.machine).store := by
  obtain ⟨level, around, placed⟩ := reached.placed
  have linked := placed.executes.linked
  refine ⟨?_, ?_, ?_⟩
  · intro depth rounds stmt
    exact Action.exec_confined (Action.activate_confined config depth) rounds stmt linked
  · intro depth expr
    exact Action.eval_confined (Action.activate_confined config depth) expr linked
  · intro depth name closure args visible
    have member := Store.Linked.home_mem linked visible
    exact ⟨member, Action.activate_confined config depth closure args point.machine linked member⟩

theorem activations_isolated_shadowing : ∃ machine,
    Reached .default shadowing 2 (.empty none) ⟨0, .expr (.var "x" (.point 0)), machine⟩ ∧
      machine.chain = [2, 0] ∧
      ∀ depth rounds stmt, machine.store.Evolves [2, 0]
        ((Action.exec (Action.activate .default depth) rounds stmt).final machine).store := by
  obtain ⟨machine, reached, chain, -⟩ := shadowing_reached
  obtain ⟨statements, -, -⟩ := activations_isolated reached
  exact ⟨machine, reached, chain, fun depth rounds stmt => chain ▸ statements depth rounds stmt⟩

end MiniPascal
