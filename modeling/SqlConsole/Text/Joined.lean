/-!
# Joined texts

Texts with a separator between each two of them.
-/

namespace SqlConsole.Text

/-- Texts with a separator between each two of them. -/
def joined (separator : List Char) : List (List Char) → List Char
  | [] => []
  | [s] => s
  | s :: t :: rest => s ++ separator ++ joined separator (t :: rest)

/-- Strings with a separator between each two of them. -/
def join (separator : String) (parts : List String) : String :=
  String.ofList (joined separator.toList (parts.map String.toList))

/-- All but the first text come behind a separator. -/
theorem joined_cons (separator s : List Char) (rest : List (List Char)) :
    joined separator (s :: rest) = s ++ rest.flatMap (separator ++ ·) := by
  induction rest generalizing s with
  | nil => simp [joined]
  | cons t rest ih => simp [joined, ih]

end SqlConsole.Text
