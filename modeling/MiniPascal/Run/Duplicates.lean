import MiniPascal.Fault

namespace MiniPascal

/-- The first name of a list that stands in it before, or among those seen already. -/
def firstRepeated? (seen : List String) : List String → Option String
  | [] => none
  | name :: rest => if name ∈ seen then some name else firstRepeated? (name :: seen) rest

/-- The names that an activation binds before the declarations of the block: the parameters, and the
result variable of a function. -/
def Heading.boundNames (heading : Heading) : List String :=
  heading.params.map (·.name.name) ++ (heading.result.map fun _ => heading.name.name).toList

/-- The names of declarations, in order. -/
def Decl.names (declarations : List Decl) : List String := declarations.map (·.name.name)

mutual

/-- The first name that a block of a declared routine, or one nested in it, declares twice. -/
def Decl.duplicate? : Decl → Option String
  | .var _ _ => none
  | .routine heading declarations _ =>
    (firstRepeated? [] (heading.boundNames ++ names declarations)).or (duplicateIn? declarations)

/-- The first duplicate of the routines of a declaration part, in order. -/
def Decl.duplicateIn? : List Decl → Option String
  | [] => none
  | first :: rest => first.duplicate?.or (duplicateIn? rest)

end

/-- The first name that a program declares twice in one name space, whether the routine that does so
is ever called or not. -/
def Block.duplicate? (block : Block) : Option String :=
  (firstRepeated? [] (Decl.names block.declarations)).or (Decl.duplicateIn? block.declarations)

end MiniPascal
