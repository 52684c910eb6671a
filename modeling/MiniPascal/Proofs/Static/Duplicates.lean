import MiniPascal.Proofs.Static.Checks

namespace MiniPascal

mutual

/-- The blocks of a declared routine and of those nested in it, an outer block before its inner ones. -/
def Decl.levels : Decl → List Level
  | .var _ _ => []
  | .routine heading declarations body =>
    ⟨some heading, ⟨declarations, body⟩⟩ :: Decl.levelsIn declarations

def Decl.levelsIn : List Decl → List Level
  | [] => []
  | first :: rest => first.levels ++ Decl.levelsIn rest

end

/-- The blocks of a program at every depth, each before those nested in it and in the order of the
text otherwise. -/
def Program.levels (program : Program) : List Level :=
  program.level :: Decl.levelsIn program.block.declarations

/-- The name is the first of a list that stands in it before. -/
def FirstRepeats (names : List String) (name : String) : Prop :=
  ∃ before after, names = before ++ name :: after ∧ before.Nodup ∧ name ∈ before

/-- The name is the first to be repeated in the first block of the program that repeats one. -/
def Program.FirstDuplicate (program : Program) (name : String) : Prop :=
  ∃ before level after, program.levels = before ++ level :: after ∧
    (∀ earlier ∈ before, earlier.names.Nodup) ∧ FirstRepeats level.names name

section

variable {level : Level} {routine : Routine} {program : Program} {name : String}

theorem Decl.mem_levelsIn {decl : Decl} {declarations : List Decl} (member : decl ∈ declarations)
    (nested : level ∈ decl.levels) : level ∈ Decl.levelsIn declarations := by
  induction declarations with
  | nil => cases member
  | cons first rest ih =>
    rw [Decl.levelsIn, List.mem_append]
    rcases List.mem_cons.mp member with rfl | later
    · exact .inl nested
    · exact .inr (ih later)

theorem Decl.level_mem_levelsIn {declarations : List Decl}
    (declared : routine ∈ declarations.filterMap Decl.routine?) :
    routine.level ∈ Decl.levelsIn declarations := by
  obtain ⟨decl, member, found⟩ := List.mem_filterMap.mp declared
  refine Decl.mem_levelsIn member ?_
  rw [Decl.routine?_eq_some found, Decl.levels]
  exact List.mem_cons_self

mutual

theorem Decl.levels_closed (decl : Decl) (member : level ∈ decl.levels)
    (declared : routine ∈ level.routines) : routine.level ∈ decl.levels := by
  cases decl with
  | var name type => cases member
  | routine heading declarations body =>
    rw [Decl.levels] at member ⊢
    rcases List.mem_cons.mp member with rfl | inner
    · exact List.mem_cons_of_mem _ (Decl.level_mem_levelsIn declared)
    · exact List.mem_cons_of_mem _ (Decl.levelsIn_closed declarations inner declared)

theorem Decl.levelsIn_closed (declarations : List Decl)
    (member : level ∈ Decl.levelsIn declarations) (declared : routine ∈ level.routines) :
    routine.level ∈ Decl.levelsIn declarations := by
  cases declarations with
  | nil => cases member
  | cons first rest =>
    rw [Decl.levelsIn, List.mem_append] at member ⊢
    rcases member with inFirst | later
    · exact .inl (Decl.levels_closed first inFirst declared)
    · exact .inr (Decl.levelsIn_closed rest later declared)

end

/-- The list misses no block: whatever the blocks around a place are, the innermost is in it. -/
theorem Program.Nests.mem_levels {around : List Level} (nests : program.Nests (level :: around)) :
    level ∈ program.levels := by
  generalize at_levels : level :: around = levels at nests
  induction nests generalizing level around with
  | whole =>
    cases at_levels
    exact List.mem_cons_self
  | routine nests declared ih =>
    cases at_levels
    rcases List.mem_cons.mp (ih rfl) with rfl | inner
    · exact List.mem_cons_of_mem _ (Decl.level_mem_levelsIn declared)
    · exact List.mem_cons_of_mem _ (Decl.levelsIn_closed _ inner declared)

theorem firstRepeated?_eq_some {seen names : List String}
    (found : firstRepeated? seen names = some name) :
    ∃ before after, names = before ++ name :: after ∧ before.Nodup ∧
      (∀ other ∈ before, other ∉ seen) ∧ (name ∈ seen ∨ name ∈ before) := by
  induction names generalizing seen with
  | nil => cases found
  | cons first rest ih =>
    rw [firstRepeated?] at found
    split at found
    · rename_i known
      cases found
      exact ⟨[], rest, rfl, .nil, by simp, .inl known⟩
    · rename_i fresh
      obtain ⟨before, after, rfl, distinct, unseen, again⟩ := ih found
      have single : first ∉ before := fun member => unseen first member List.mem_cons_self
      refine ⟨first :: before, after, rfl, List.nodup_cons.mpr ⟨single, distinct⟩, ?_, ?_⟩
      · intro other member
        rcases List.mem_cons.mp member with rfl | later
        · exact fresh
        · exact fun known => unseen other later (List.mem_cons_of_mem _ known)
      · rcases again with known | member
        · rcases List.mem_cons.mp known with rfl | known
          · exact .inr List.mem_cons_self
          · exact .inl known
        · exact .inr (List.mem_cons_of_mem _ member)

/-- The first name that an activation of the block would declare a second time. -/
def Level.repeated? (level : Level) : Option String := firstRepeated? [] level.names

theorem Level.repeated?_eq_none : level.repeated? = none ↔ level.names.Nodup := by
  rw [Level.repeated?, firstRepeated?_eq_none]
  simp

theorem Level.firstRepeats (found : level.repeated? = some name) : FirstRepeats level.names name := by
  obtain ⟨before, after, split, distinct, -, known | again⟩ := firstRepeated?_eq_some found
  · cases known
  · exact ⟨before, after, split, distinct, again⟩

mutual

theorem Decl.duplicate?_eq (decl : Decl) :
    decl.duplicate? = decl.levels.findSome? Level.repeated? := by
  cases decl with
  | var name type => rfl
  | routine heading declarations body =>
    rw [Decl.duplicate?, Decl.levels, Decl.duplicateIn?_eq declarations, List.findSome?_cons,
      Level.repeated?, Level.names, Level.bound, Heading.map_fst_bound]
    cases firstRepeated? [] (heading.boundNames ++ Decl.names declarations) <;> rfl

theorem Decl.duplicateIn?_eq (declarations : List Decl) :
    Decl.duplicateIn? declarations = (Decl.levelsIn declarations).findSome? Level.repeated? := by
  cases declarations with
  | nil => rfl
  | cons first rest =>
    rw [Decl.duplicateIn?, Decl.levelsIn, List.findSome?_append, Decl.duplicate?_eq first,
      Decl.duplicateIn?_eq rest]

end

/-- The check for duplicates goes through the blocks in order. -/
theorem Program.duplicate?_eq (program : Program) :
    program.block.duplicate? = program.levels.findSome? Level.repeated? := by
  have outermost : firstRepeated? [] (Decl.names program.block.declarations) =
      program.level.repeated? := rfl
  rw [Block.duplicate?, Program.levels, Decl.duplicateIn?_eq, List.findSome?_cons, outermost]
  cases program.level.repeated? <;> rfl

theorem Program.duplicate?_eq_none_iff :
    program.block.duplicate? = none ↔ ∀ level ∈ program.levels, level.names.Nodup := by
  simp only [Program.duplicate?_eq, List.findSome?_eq_none_iff, Level.repeated?_eq_none]

theorem Program.firstDuplicate (found : program.block.duplicate? = some name) :
    program.FirstDuplicate name := by
  rw [Program.duplicate?_eq, List.findSome?_eq_some_iff] at found
  obtain ⟨before, level, after, split, repeats, earlier⟩ := found
  exact ⟨before, level, after, split, fun level member =>
    Level.repeated?_eq_none.mp (earlier level member), Level.firstRepeats repeats⟩

end

end MiniPascal
