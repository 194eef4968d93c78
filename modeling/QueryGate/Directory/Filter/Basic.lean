import QueryGate.Directory.Conversation

/-! Filters and their texts. An attribute name has no equals sign and no parenthesis, and a value no
parenthesis; a value that is a single star would be read as presence. -/

namespace QueryGate.Directory

inductive Filter where
  | all (parts : List Filter)
  | any (parts : List Filter)
  | not (part : Filter)
  | present (attr : String)
  | equal (attr value : String)

namespace Filter

mutual

def holds (entry : Entry) : Filter → Bool
  | all parts => allHold entry parts
  | any parts => anyHolds entry parts
  | not part => !holds entry part
  | present attr => !(entry.values attr).isEmpty
  | equal attr value => (entry.values attr).any fun other => Text.sameLetters other value

def allHold (entry : Entry) : List Filter → Bool
  | [] => true
  | part :: rest => holds entry part && allHold entry rest

def anyHolds (entry : Entry) : List Filter → Bool
  | [] => false
  | part :: rest => holds entry part || anyHolds entry rest

end

mutual

def text : Filter → List Char
  | all parts => '(' :: '&' :: (texts parts ++ [')'])
  | any parts => '(' :: '|' :: (texts parts ++ [')'])
  | not part => '(' :: '!' :: (text part ++ [')'])
  | present attr => '(' :: (attr.toList ++ ['=', '*', ')'])
  | equal attr value => '(' :: (attr.toList ++ '=' :: (value.toList ++ [')']))

def texts : List Filter → List Char
  | [] => []
  | part :: rest => text part ++ texts rest

end

end Filter
end QueryGate.Directory
