import ShowerTrack.Decimal.Shortest

/-!
# Printing

Documents in block style: a field or an item a line, nested records indented by two,
and the items of a list below the name of its field.
-/

set_option autoImplicit false

namespace ShowerTrack.Yaml

inductive Layout where
  | word (text : String)
  | list (items : List Layout)
  | record (fields : List (String × Layout))

namespace Layout

def null : Layout := word "null"

def bool (b : Bool) : Layout := word (if b then "true" else "false")

def natural (n : Nat) : Layout := word (toString n)

def int (n : Int) : Layout := word (toString n)

def single (x : Float32) : Layout := word (singleText x)

def optional {α : Type} (f : α → Layout) : Option α → Layout
  | some x => f x
  | none => null

def listOf {α : Type} (f : α → Layout) (xs : List α) : Layout := list (xs.map f)

def indent (lines : List String) : List String := lines.map ("  " ++ ·)

def bullet : List String → List String
  | [] => []
  | line :: lines => ("- " ++ line) :: indent lines

def lines : Layout → List String
  | word text => [text]
  | list [] => ["[]"]
  | list items => itemLines items
  | record fields => fieldLines fields
where
  itemLines : List Layout → List String
    | [] => []
    | item :: items => bullet (lines item) ++ itemLines items
  fieldLines : List (String × Layout) → List String
    | [] => []
    | (name, value) :: fields =>
      (match value with
        | word text => [name ++ ": " ++ text]
        | list [] => [name ++ ": []"]
        | list items => (name ++ ":") :: itemLines items
        | record inner => (name ++ ":") :: indent (fieldLines inner)) ++ fieldLines fields

def print (l : Layout) : String := String.join (l.lines.map (· ++ "\n"))

end Layout

end ShowerTrack.Yaml
