/-!
Texts put together from pieces with a separator between them, and taken apart at a separator.
-/

namespace QuorumGateway.Text

def join (separator : String) : List String → String
  | [] => ""
  | [s] => s
  | s :: rest => s ++ separator ++ join separator rest

/-- the pieces of a list of characters between separators; one more than there are separators -/
def piecesOf (separator : Char) : List Char → List (List Char)
  | [] => [[]]
  | c :: rest =>
    match piecesOf separator rest with
    | [] => [[c]]
    | p :: ps => if c = separator then [] :: p :: ps else (c :: p) :: ps

def pieces (separator : Char) (s : String) : List String := (piecesOf separator s.toList).map String.ofList

end QuorumGateway.Text
