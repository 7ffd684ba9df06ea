import SqlTemplate.Template.Pipeline

/-!
# Marked templates

Before a template makes statements, every pipeline whose value would be printed is made to end in
a call of the marker. The marker decides what becomes of the value, so that no value reaches the
text of a statement without having been looked at.
-/

set_option autoImplicit false

namespace SqlTemplate

/-- The name of the marker. It is reserved, so no template can call it by itself. -/
def markerName : String := "__stencil_intercept"

/-- The command that calls the marker with what the pipeline hands over. -/
def markerCall : Command := [.function markerName]

/-- Whether a command is the call of the marker. -/
def isMarkerCall : Command → Bool
  | [.function name] => name = markerName
  | _ => false

/-- A printed pipeline with the marker behind it. A pipeline that binds variables prints
nothing. -/
def Pipeline.mark (p : Pipeline) : Pipeline :=
  if p.declared.isEmpty then
    match p.commands.getLast? with
    | none => p
    | some last => if isMarkerCall last then p else { p with commands := p.commands ++ [markerCall] }
  else p

mutual

/-- A node whose printed pipelines are marked. -/
def Node.mark : Node → Node
  | .text s => .text s
  | .action line pipe => .action line pipe.mark
  | .block kind line pipe body otherwise =>
    .block kind line pipe (markNodes body) (markOption otherwise)

/-- Nodes whose printed pipelines are marked. -/
def markNodes : List Node → List Node
  | [] => []
  | node :: rest => node.mark :: markNodes rest

/-- The alternative of a block with its printed pipelines marked. -/
def markOption : Option (List Node) → Option (List Node)
  | none => none
  | some nodes => some (markNodes nodes)

end

/-- A template whose printed pipelines are marked. -/
def Template.mark (t : Template) : Template :=
  { t with root := markNodes t.root }

end SqlTemplate
