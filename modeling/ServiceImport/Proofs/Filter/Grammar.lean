import ServiceImport.Filter.Basic
import ServiceImport.Text.Blank

/-! # The grammar of filters

What the text of a filter looks like, said without the reader.
-/

namespace ServiceImport.Filter

/-! ## Values and items -/

/-- A run of blanks, which may be empty. -/
def Blanks (s : List Char) : Prop := ∀ c ∈ s, Text.isBlank c = true

/-- The text of a value, and the parts between its wildcards without their backslashes. -/
inductive ValueText : List Char → List (List Char) → Prop
  | empty : ValueText [] [[]]
  | plain {c : Char} {s part : List Char} {parts : List (List Char)} :
      c ∉ ['(', ')', '*', '\\'] → ValueText s (part :: parts) →
        ValueText (c :: s) ((c :: part) :: parts)
  | escaped {c : Char} {s part : List Char} {parts : List (List Char)} :
      ValueText s (part :: parts) → ValueText ('\\' :: c :: s) ((c :: part) :: parts)
  | wildcard {s : List Char} {parts : List (List Char)} :
      ValueText s parts → ValueText ('*' :: s) ([] :: parts)

/-- The text of an attribute: what is left when the blanks around it go is its name, and does not
begin like a connective. -/
structure AttributeText (run : List Char) (attr : String) : Prop where
  plain : ∀ c ∈ run, c ∉ ['=', '<', '>', '~', '(', ')']
  first : ∀ c, (run.find? (!Text.isBlank ·)) = some c → c ∉ ['&', '|', '!']
  named : Text.trim run ≠ []
  name : attr = String.ofList (Text.trim run)

/-- The text of an operator and a value. -/
inductive OperatorText (attr : String) : List Char → Filter → Prop
  | present : OperatorText attr ['=', '*'] (present attr)
  | equal {value part : List Char} :
      ValueText value [part] → OperatorText attr ('=' :: value) (equal attr (String.ofList part))
  | substring {value : List Char} {parts : List (List Char)} :
      ValueText value parts → 1 < parts.length → value ≠ ['*'] →
        OperatorText attr ('=' :: value) (substring attr (parts.map String.ofList))
  | approx {value part : List Char} :
      ValueText value [part] →
        OperatorText attr ('~' :: '=' :: value) (approx attr (String.ofList part))
  | atLeast {value part : List Char} :
      ValueText value [part] →
        OperatorText attr ('>' :: '=' :: value) (atLeast attr (String.ofList part))
  | atMost {value part : List Char} :
      ValueText value [part] →
        OperatorText attr ('<' :: '=' :: value) (atMost attr (String.ofList part))

inductive ItemText : List Char → Filter → Prop
  | mk {run operator : List Char} {attr : String} {f : Filter} :
      AttributeText run attr → OperatorText attr operator f → ItemText (run ++ operator) f

/-! ## Filters -/

mutual

/-- The text of a filter, from its opening to its closing parenthesis. -/
inductive FilterText : List Char → Filter → Prop
  | connective {w s w' : List Char} {f : Filter} :
      Blanks w → ConnectiveText s f → Blanks w' → FilterText ('(' :: w ++ s ++ w' ++ [')']) f
  | item {w s : List Char} {f : Filter} :
      Blanks w → ItemText s f → FilterText ('(' :: w ++ s ++ [')']) f

/-- The text of a connective and of what it joins. -/
inductive ConnectiveText : List Char → Filter → Prop
  | all {s : List Char} {items : List Filter} :
      items ≠ [] → FiltersText s items → ConnectiveText ('&' :: s) (all items)
  | any {s : List Char} {items : List Filter} :
      items ≠ [] → FiltersText s items → ConnectiveText ('|' :: s) (any items)
  | not {w s : List Char} {item : Filter} :
      Blanks w → FilterText s item → ConnectiveText ('!' :: w ++ s) (not item)

/-- The text of filters one after another, each after blanks. -/
inductive FiltersText : List Char → List Filter → Prop
  | nil : FiltersText [] []
  | cons {w s t : List Char} {item : Filter} {items : List Filter} :
      Blanks w → FilterText s item → FiltersText t items →
        FiltersText (w ++ s ++ t) (item :: items)

end

mutual

/-- How many connectives enclose one another at most. -/
def depth : Filter → Nat
  | all items => depthList items + 1
  | any items => depthList items + 1
  | not item => depth item + 1
  | _ => 0

/-- The greatest depth in a list. -/
def depthList : List Filter → Nat
  | [] => 0
  | item :: rest => max (depth item) (depthList rest)

end

/-- A text is derived as a filter when it is the text of the filter between blanks. -/
def Derives (text : String) (f : Filter) : Prop :=
  ∃ w s w', text.toList = w ++ s ++ w' ∧ Blanks w ∧ FilterText s f ∧ Blanks w'

end ServiceImport.Filter
