/-!
# Parts of a text
-/

namespace RadioGateway.Text

/-- A text cut at each separator: one part more than there are separators. -/
def splitAt (separator : Char) : List Char → List (List Char)
  | [] => [[]]
  | c :: rest =>
    match splitAt separator rest with
    | [] => [[c]]
    | part :: parts => if c = separator then [] :: part :: parts else (c :: part) :: parts

end RadioGateway.Text
