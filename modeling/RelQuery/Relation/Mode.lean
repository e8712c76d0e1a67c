/-!
# Modes of relations

How a related table hangs off its parent decides how its rows are loaded: relations to one row are
joined into the parent's statement, relations to many rows are loaded by a statement of their own.
-/

namespace RelQuery

/-- How a related table hangs off its parent. -/
inductive RelationMode where
  /-- The child row references the parent. -/
  | hasOne
  /-- Many child rows reference the parent. -/
  | hasMany
  /-- The parent row references the child. -/
  | belongsTo
  /-- Parent and child are linked through a junction table. -/
  | belongsToMany
  deriving DecidableEq, Repr, Inhabited

namespace RelationMode

def name : RelationMode → String
  | hasOne => "hasOne"
  | hasMany => "hasMany"
  | belongsTo => "belongsTo"
  | belongsToMany => "belongsToMany"

/-- Whether a parent has at most one row of this relation, joined inline. -/
def isToOne : RelationMode → Bool
  | hasOne => true
  | belongsTo => true
  | hasMany => false
  | belongsToMany => false

end RelationMode

end RelQuery
