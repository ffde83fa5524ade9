/-!
# Lines

A line ends in a line feed, in front of which a single carriage return is taken away with it. What
follows the last line feed is a line of its own unless it is empty; its return stays.

`Text.lines` serves texts and byte strings alike.
-/

namespace LogRouter.Text

variable {α : Type} [DecidableEq α]

/-- A reversed line without the carriage return at its end. -/
def dropReturn (ret : α) (reversed : List α) : List α :=
  match reversed with
  | [] => []
  | c :: rest => if c = ret then rest else reversed

/-- The lines of a text behind the reversed start `acc` of the first of them. -/
def linesFrom (feed ret : α) (acc : List α) : List α → List (List α)
  | [] => if acc.isEmpty then [] else [acc.reverse]
  | c :: rest =>
    if c = feed then (dropReturn ret acc).reverse :: linesFrom feed ret [] rest
    else linesFrom feed ret (c :: acc) rest

/-- The lines of a text, where `feed` and `ret` are the line feed and the carriage return. -/
def lines (feed ret : α) (s : List α) : List (List α) := linesFrom feed ret [] s

end LogRouter.Text
