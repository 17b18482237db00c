/-! The larger and the smaller of two numbers when one may be no number at all.

A value that is not a number gives way to the other one, so a maximum over a list
forgets such values unless all of them are. Of two equal numbers the first is
kept. -/
namespace Drafting.Number

/-- The larger of two numbers; one that is not a number gives way. -/
def larger (x y : Float) : Float :=
  if x.isNaN then y else if x < y then y else x

/-- The smaller of two numbers; one that is not a number gives way. -/
def smaller (x y : Float) : Float :=
  if x.isNaN then y else if y < x then y else x

/-- The largest of `xs` and zero. -/
def largest (xs : List Float) : Float := xs.foldl larger 0.0

@[simp] theorem largest_nil : largest [] = 0.0 := rfl

theorem largest_append (xs ys : List Float) : largest (xs ++ ys) = ys.foldl larger (largest xs) := by
  simp [largest]

end Drafting.Number
