namespace TaskKernel

abbrev Word := BitVec 32

namespace Word

def without (w mask : Word) : Word := w &&& ~~~mask

def isClear (w mask : Word) : Bool := w &&& mask = 0

def positions (w : Word) : List Nat := (List.range 32).filter w.getLsbD

theorem getLsbD_without (w mask : Word) (i : Nat) :
    (without w mask).getLsbD i = (w.getLsbD i && !mask.getLsbD i) := by
  by_cases h : i < 32
  · simp [without, h]
  · simp [without, BitVec.getLsbD_of_ge w i (by omega)]

end Word

end TaskKernel
