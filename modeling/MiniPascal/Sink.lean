namespace MiniPascal

/-- Where output goes: the bytes taken so far, and how many more are taken before the sink closes. -/
structure Sink where
  taken : ByteArray
  room : Option Nat

/-- A sink that has taken nothing, with room for a number of bytes or without a bound. -/
def Sink.empty (room : Option Nat) : Sink := ⟨.empty, room⟩

/-- Writes as many of the bytes as there is room for, and says whether that was all of them. -/
def Sink.write (sink : Sink) (bytes : ByteArray) : Sink × Bool :=
  match sink.room with
  | none => (⟨sink.taken ++ bytes, none⟩, true)
  | some room =>
    if bytes.size ≤ room then (⟨sink.taken ++ bytes, some (room - bytes.size)⟩, true)
    else (⟨sink.taken ++ bytes.extract 0 room, some 0⟩, false)

end MiniPascal
