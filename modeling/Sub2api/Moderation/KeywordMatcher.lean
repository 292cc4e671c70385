import Mathlib.Data.Fin.Basic
import Mathlib.Data.List.Basic
import Mathlib.Logic.Function.Basic

/-!
# The keyword matcher

An automaton that looks for all blocked keywords at once: a tree of the lower-cased keywords whose
nodes get failure links by a breadth-first pass, and sorted edges for the search. A node lists its
edges, which the source keeps as a chain of siblings while it builds the tree and as a slice of one
array afterwards. An index of `-1` is `none`. `strings.ToLower` is a parameter.
-/

namespace Sub2api.Moderation

abbrev Byte := Fin 256

structure KeywordEdge where
  target : ℕ
  label : Byte

structure KeywordNode where
  failure : ℕ := 0
  bestKeyword : Option ℕ := none
  edges : List KeywordEdge := []

/-- The slice of nodes; the first one is the root. -/
structure KeywordNodes where
  size : ℕ := 1
  node : ℕ → KeywordNode := fun _ => {}

namespace KeywordNodes

def update (nodes : KeywordNodes) (state : ℕ) (change : KeywordNode → KeywordNode) :
    KeywordNodes :=
  { nodes with node := Function.update nodes.node state (change (nodes.node state)) }

/-- `contentModerationKeywordBuildTransition`. -/
def transition (nodes : KeywordNodes) (state : ℕ) (label : Byte) : Option ℕ :=
  if state ≥ nodes.size then none
  else ((nodes.node state).edges.find? fun edge => edge.label = label).map (·.target)

end KeywordNodes

def minKeywordIndex : Option ℕ → Option ℕ → Option ℕ
  | none, right => right
  | some left, none => some left
  | some left, some right => if left < right then some left else some right

/-! ### Building -/

/-- One byte of a keyword: the node for it, with a new one where there is none. -/
def insertLabel (at_ : KeywordNodes × ℕ) (label : Byte) : KeywordNodes × ℕ :=
  let (nodes, state) := at_
  match nodes.transition state label with
  | some next => (nodes, next)
  | none =>
      let next := nodes.size
      let nodes := { nodes with
        size := nodes.size + 1
        node := Function.update nodes.node next {} }
      (nodes.update state fun node => { node with edges := { target := next, label } :: node.edges },
        next)

section Lower

variable (toLower : List Byte → List Byte)

def insertKeyword (nodes : KeywordNodes) (entry : List Byte × ℕ) : KeywordNodes :=
  let (keyword, keywordIndex) := entry
  if keyword = [] then nodes
  else
    let (nodes, state) := (toLower keyword).foldl insertLabel (nodes, 0)
    match (nodes.node state).bestKeyword with
    | none => nodes.update state fun node => { node with bestKeyword := some keywordIndex }
    | some current =>
        if keywordIndex < current then
          nodes.update state fun node => { node with bestKeyword := some keywordIndex }
        else nodes

/-- The loop that goes back along failure links until there is a transition. The links of a tree get
shorter, so it takes no more steps than there are nodes. -/
def fallbackFrom (nodes : KeywordNodes) (label : Byte) : ℕ → ℕ → Option ℕ
  | 0, _ => none
  | fuel + 1, failure =>
      match nodes.transition failure label with
      | some fallback => some fallback
      | none => if failure = 0 then none
          else fallbackFrom nodes label fuel (nodes.node failure).failure

/-- The failure link and the keywords of the child that an edge leads to. -/
def linkChild (state : ℕ) (nodes : KeywordNodes) (edge : KeywordEdge) : KeywordNodes :=
  let nodes :=
    match fallbackFrom nodes edge.label nodes.size (nodes.node state).failure with
    | some fallback => nodes.update edge.target fun node => { node with failure := fallback }
    | none => nodes
  nodes.update edge.target fun node =>
    { node with
      bestKeyword :=
        minKeywordIndex node.bestKeyword (nodes.node node.failure).bestKeyword }

/-- The breadth-first pass. Every node is queued once, so there are no more rounds than nodes. -/
def linkNodes : ℕ → List ℕ → KeywordNodes → KeywordNodes
  | 0, _, nodes => nodes
  | _ + 1, [], nodes => nodes
  | fuel + 1, state :: queue, nodes =>
      let edges := (nodes.node state).edges
      linkNodes fuel (queue ++ edges.map (·.target)) (edges.foldl (linkChild state) nodes)

/-- One step of the insertion sort: an edge goes before the first one with a greater label. -/
def insertEdge (sorted : List KeywordEdge) (current : KeywordEdge) : List KeywordEdge :=
  match sorted with
  | [] => [current]
  | edge :: rest =>
      if current.label < edge.label then current :: edge :: rest
      else edge :: insertEdge rest current

def sortEdges (edges : List KeywordEdge) : List KeywordEdge := edges.foldl insertEdge []

/-- `contentModerationKeywordMatcher`. -/
structure KeywordMatcher where
  nodes : KeywordNodes
  rootTransitions : Byte → ℕ
  keywords : List (List Byte)

/-- `newContentModerationKeywordMatcher`. -/
def newKeywordMatcher (keywords : List (List Byte)) : Option KeywordMatcher :=
  if keywords.length = 0 then none
  else
    let nodes := keywords.zipIdx.foldl (insertKeyword toLower) {}
    if nodes.size = 1 then none
    else
      let rootEdges := (nodes.node 0).edges
      let linked := linkNodes nodes.size (rootEdges.map (·.target)) nodes
      some {
        nodes := { linked with
          node := fun state =>
            { linked.node state with edges := sortEdges (linked.node state).edges } }
        rootTransitions :=
          rootEdges.foldl (fun table edge => Function.update table edge.label edge.target)
            fun _ => 0
        keywords := keywords }

/-! ### Matching -/

/-- The binary search of `next`: the first edge from `left` on whose label is not smaller. -/
def searchEdge (edges : List KeywordEdge) (label : Byte) (left right : ℕ) : ℕ :=
  if _inside : left < right then
    let middle := left + (right - left) / 2
    match edges[middle]? with
    | some edge =>
        if edge.label < label then searchEdge edges label (middle + 1) right
        else searchEdge edges label left middle
    | none => left
  else left
termination_by right - left

namespace KeywordMatcher

def next (m : KeywordMatcher) (state : ℕ) (label : Byte) : ℕ :=
  if state = 0 then m.rootTransitions label
  else if state ≥ m.nodes.size then 0
  else
    let edges := (m.nodes.node state).edges
    match edges[searchEdge edges label 0 edges.length]? with
    | some edge => if edge.label = label then edge.target else 0
    | none => 0

/-- The inner loop of `Match`, which takes no more steps than there are nodes. -/
def advance (m : KeywordMatcher) (label : Byte) : ℕ → ℕ → ℕ
  | 0, state => state
  | fuel + 1, state =>
      let next := m.next state label
      if next ≠ 0 then next
      else if state = 0 then 0
      else advance m label fuel (m.nodes.node state).failure

/-- The outer loop of `Match`; it ends early at the first keyword of the list. -/
def scan (m : KeywordMatcher) (state : ℕ) (bestKeyword : Option ℕ) : List Byte → Option ℕ
  | [] => bestKeyword
  | label :: rest =>
      let state := m.advance label m.nodes.size state
      let bestKeyword := minKeywordIndex bestKeyword (m.nodes.node state).bestKeyword
      if bestKeyword = some 0 then some 0 else scan m state bestKeyword rest

/-- `Match` of a matcher that is not nil. -/
def matchText (m : KeywordMatcher) (text : List Byte) : Option (List Byte) :=
  if text = [] ∨ m.nodes.size = 0 ∨ m.keywords.length = 0 then none
  else
    match m.scan 0 none (toLower text) with
    | none => none
    | some bestKeyword => m.keywords[bestKeyword]?

end KeywordMatcher

/-- `Match`. -/
def matchKeyword (m : Option KeywordMatcher) (text : List Byte) : Option (List Byte) :=
  m.bind fun m => m.matchText toLower text

end Lower

end Sub2api.Moderation
