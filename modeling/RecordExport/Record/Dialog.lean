/-!
# Dialogs

A dialog is a graph. Lines and actions link to at most one node, choices to one per option; a link
names a node id, which need not exist. The first node is where the dialog begins.
-/

namespace RecordExport

/-- An answer the player can pick. -/
structure ChoiceOption where
  id : String
  text : String
  next : Option String
  deriving DecidableEq, Repr

/-- What happens at a node. -/
inductive NodeContent where
  | npcText (text : String) (next : Option String)
  | playerText (text : String) (next : Option String)
  | choice (options : List ChoiceOption)
  | action (action value : String) (next : Option String)
  deriving DecidableEq, Repr

/-- A node of a dialog. -/
structure DialogNode where
  id : String
  content : NodeContent
  deriving DecidableEq, Repr

namespace DialogNode

/-- The player picks how to go on from the node. -/
def isChoice (n : DialogNode) : Bool :=
  match n.content with
  | .choice _ => true
  | _ => false

/-- The ids the node links to, in the order of its links. -/
def successors (n : DialogNode) : List String :=
  match n.content with
  | .npcText _ next | .playerText _ next | .action _ _ next => next.toList
  | .choice options => options.filterMap (·.next)

end DialogNode

/-- A dialog of an object. -/
structure Dialog where
  id : String
  objectId : String
  nodes : List DialogNode
  deriving DecidableEq, Repr

/-- The first node with an id. -/
def Dialog.node? (d : Dialog) (id : String) : Option DialogNode := d.nodes.find? (·.id = id)

end RecordExport
