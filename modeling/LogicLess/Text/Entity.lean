/-!
# Entities

Four characters that mean something in markup are written as entities. A text is written at once by
`encode`, or in pieces: the stretches between these characters and the entities in turn.
-/

namespace LogicLess.Text

def entity? : Char → Option (List Char)
  | '&' => some ['&', 'a', 'm', 'p', ';']
  | '"' => some ['&', 'q', 'u', 'o', 't', ';']
  | '<' => some ['&', 'l', 't', ';']
  | '>' => some ['&', 'g', 't', ';']
  | _ => none

def encode (s : List Char) : List Char :=
  s.flatMap fun c => (entity? c).getD [c]

/-- The stretches between the characters that need an entity, with the entities between them. -/
def encodePieces : List Char → List (List Char)
  | [] => [[]]
  | c :: rest =>
    match entity? c, encodePieces rest with
    | some e, pieces => [] :: e :: pieces
    | none, [] => [[c]]
    | none, piece :: pieces => (c :: piece) :: pieces

end LogicLess.Text
