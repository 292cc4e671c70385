import Sub2api.Antigravity.Stream

/-!
# What a stream assembles to

A reader of the events applies each delta to the block that it names. `View` is the accumulator
that the streaming converter amounts to: the blocks that are finished and the one that is open.
`processPart_shows` says that a part does to what has been read what `View.part` does.
-/

namespace Sub2api.Antigravity

open Transducer

/-! ### Reading events -/

/-- A block as it is read, with the JSON of its input so far. -/
structure Builder where
  index : ℤ
  item : ClaudeContentItem
  json : Option String := none

def Builder.add (b : Builder) (delta : Delta) : Builder :=
  match delta with
  | .text text => { b with item := { b.item with text := b.item.text ++ text } }
  | .thinking thinking => { b with item := { b.item with thinking := b.item.thinking ++ thinking } }
  | .signature signature => { b with item := { b.item with signature } }
  | .inputJSON json => { b with json := some (b.json.getD "" ++ json) }

/-- The block; its streamed input replaces the one it started with. -/
def Builder.finish (b : Builder) : ClaudeContentItem :=
  match b.json with
  | some json => { b.item with input := some json }
  | none => b.item

/-- A message as it is read. -/
structure Assembly where
  blocks : List Builder := []
  stopReason : String := ""
  usage : ClaudeUsage := {}

def Assembly.read (a : Assembly) (event : ClaudeEvent) : Assembly :=
  match event with
  | .messageStart _ _ usage => { a with usage }
  | .contentBlockStart index block => { a with blocks := a.blocks ++ [{ index, item := block }] }
  | .contentBlockDelta index delta =>
    { a with blocks := a.blocks.map fun b => if b.index = index then b.add delta else b }
  | .messageDelta stopReason usage => { a with stopReason, usage }
  | .contentBlockStop _ | .messageStop => a

def Assembly.content (a : Assembly) : List ClaudeContentItem := a.blocks.map Builder.finish

/-- The message that a stream assembles to. -/
def assemble (events : List ClaudeEvent) : Assembly := events.foldl Assembly.read {}

/-- A reader rejects nothing. -/
def reading (a : Assembly) (event : ClaudeEvent) : Option Assembly := some (a.read event)

theorem observe_reading (a : Assembly) (events : List ClaudeEvent) :
    observe reading a events = some (events.foldl Assembly.read a) := by
  induction events generalizing a with
  | nil => rfl
  | cons event rest ih =>
    rw [observe_cons]
    exact ih _

/-! ### Views -/

def textItem (text : String) : ClaudeContentItem := { type := .text, text }

def thinkingItem (thinking signature : String) : ClaudeContentItem :=
  { type := .thinking, thinking, signature }

def toolItem (ids : Ids) (generated : ℕ) (fc : GeminiFunctionCall) (signature : String)
    (input : Option String) : ClaudeContentItem :=
  { type := .toolUse, id := fc.toolID ids.generateRandomID generated, name := fc.name, input,
    signature }

/-- The open block of a stream between two parts. -/
inductive OpenBlock where
  | none
  | text (text : String)
  | thinking (thinking signature : String)
  deriving DecidableEq

def OpenBlock.items : OpenBlock → List ClaudeContentItem
  | .none => []
  | .text said => [textItem said]
  | .thinking thought signature => [thinkingItem thought signature]

structure View where
  closed : List ClaudeContentItem := []
  opened : OpenBlock := .none
  usedTool : Bool := false
  generated : ℕ := 0

namespace View

variable (v : View)

def content : List ClaudeContentItem := v.closed ++ v.opened.items

/-- The open block is closed and others follow. -/
def push (items : List ClaudeContentItem) : View :=
  { v with closed := v.content ++ items, opened := .none }

def text (text : String) : View :=
  match v.opened with
  | .text before => { v with opened := .text (before ++ text) }
  | _ => { v.push [] with opened := .text text }

def thought (text signature : String) : View :=
  match v.opened with
  | .thinking before signed =>
    { v with opened := .thinking (before ++ text) (if signature ≠ "" then signature else signed) }
  | _ => { v.push [] with opened := .thinking text signature }

def call (ids : Ids) (fc : GeminiFunctionCall) (signature : String) : View :=
  { v.push [toolItem ids v.generated fc signature (some (fc.args.getD "{}"))] with
    usedTool := true
    generated := fc.generated v.generated }

/-- A text of a part. -/
def said (text signature : String) : View :=
  if signature ≠ "" then v.push [textItem text, thinkingItem "" signature] else v.text text

def part (ids : Ids) (part : GeminiPart) : View :=
  match part.functionCall with
  | some fc => v.call ids fc part.thoughtSignature
  | none =>
    let v :=
      if part.thought then v.thought part.text part.thoughtSignature
      else if part.text ≠ "" then v.said part.text part.thoughtSignature
      else v
    match part.image with
    | some image => v.text image
    | none => v

end View

/-! ### Blocks as they are read -/

namespace StreamingProcessor

/-- What the emitters of blocks do not touch. -/
def kept (p : StreamingProcessor) : StreamingProcessor :=
  { p with blockType := .none, blockIndex := 0, pendingSignature := "", hasContent := false }

/-- No block is open, and these have been read. -/
structure Closed (items : List ClaudeContentItem) (p : StreamingProcessor) (a : Assembly) :
    Prop where
  type : p.blockType = .none
  pending : p.pendingSignature = ""
  content : a.content = items
  below : ∀ b ∈ a.blocks, b.index < p.blockIndex

/-- A block is open, and these have been read before it. -/
structure Open (kind : BlockType) (items : List ClaudeContentItem) (item : ClaudeContentItem)
    (json : Option String) (pending : String) (p : StreamingProcessor) (a : Assembly) : Prop where
  type : p.blockType = kind
  isOpen : kind ≠ .none
  waits : p.pendingSignature = pending
  signed : pending ≠ "" → kind = .thinking
  blocks : ∃ before, a.blocks = before ++ [{ index := p.blockIndex, item, json }] ∧
    before.map Builder.finish = items ∧ ∀ b ∈ before, b.index < p.blockIndex

variable {p : StreamingProcessor} {a : Assembly} {items : List ClaudeContentItem}
  {item : ClaudeContentItem} {json : Option String} {pending : String} {kind : BlockType}

theorem Closed.same {p' : StreamingProcessor} (closed : Closed items p a)
    (blockType : p'.blockType = p.blockType) (index : p'.blockIndex = p.blockIndex)
    (signature : p'.pendingSignature = p.pendingSignature) : Closed items p' a where
  type := blockType.trans closed.type
  pending := signature.trans closed.pending
  content := closed.content
  below := by
    rw [index]
    exact closed.below

theorem Open.same {p' : StreamingProcessor} (opened : Open kind items item json pending p a)
    (blockType : p'.blockType = p.blockType) (index : p'.blockIndex = p.blockIndex)
    (signature : p'.pendingSignature = p.pendingSignature) :
    Open kind items item json pending p' a where
  type := blockType.trans opened.type
  isOpen := opened.isOpen
  waits := signature.trans opened.waits
  signed := opened.signed
  blocks := by
    rw [index]
    exact opened.blocks

/-- A delta changes the open block. -/
theorem Open.read_delta (opened : Open kind items item json pending p a) (delta : Delta) :
    ∃ before, (a.read (.contentBlockDelta p.blockIndex delta)).blocks =
        before ++ [({ index := p.blockIndex, item, json } : Builder).add delta] ∧
      before.map Builder.finish = items ∧ ∀ b ∈ before, b.index < p.blockIndex := by
  obtain ⟨before, blocks, read, below⟩ := opened.blocks
  refine ⟨before, ?_, read, below⟩
  have untouched : before.map
      (fun b => if b.index = p.blockIndex then b.add delta else b) = before := by
    conv_rhs => rw [← List.map_id before]
    apply List.map_congr_left
    intro b listed
    have under := below b listed
    rw [if_neg (by omega)]
    rfl
  simp only [Assembly.read, blocks, List.map_append, List.map_cons, List.map_nil, if_true,
    untouched]

/-- A delta, when the block's JSON stays as it is. -/
theorem emitDelta_keeps (opened : Open kind items item json pending p a) {delta : Delta}
    {item' : ClaudeContentItem} {json' : Option String}
    (added : ({ index := p.blockIndex, item, json } : Builder).add delta =
      { index := p.blockIndex, item := item', json := json' }) :
    Keeps reading (fun p' a => p'.kept = p.kept ∧ Open kind items item' json' pending p' a)
      (p.emitDelta delta) a := by
  apply Follows.one rfl
  refine ⟨rfl, opened.type, opened.isOpen, opened.waits, opened.signed, ?_⟩
  have blocks := opened.read_delta delta
  rw [added] at blocks
  exact blocks

def signedItem (item : ClaudeContentItem) (pending : String) : ClaudeContentItem :=
  if pending = "" then item else { item with signature := pending }

/-- The block as it is when it is closed. -/
def closing (item : ClaudeContentItem) (json : Option String) (pending : String) :
    ClaudeContentItem :=
  Builder.finish { index := 0, item := signedItem item pending, json }

theorem endBlock_opened (opened : Open kind items item json pending p a) :
    Keeps reading
      (fun p' a => p'.kept = p.kept ∧ Closed (items ++ [closing item json pending]) p' a)
      p.endBlock a := by
  unfold endBlock
  rw [if_neg (by rw [opened.type]; exact opened.isOpen)]
  have signed : Follows reading
      (fun a => ∃ before,
        a.blocks = before ++ [{ index := p.blockIndex, item := signedItem item pending, json }] ∧
        before.map Builder.finish = items ∧ ∀ b ∈ before, b.index < p.blockIndex)
      (if p.blockType = .thinking ∧ p.pendingSignature ≠ "" then
        [.contentBlockDelta p.blockIndex (.signature p.pendingSignature)] else []) a := by
    split
    · rename_i waiting
      apply Follows.one rfl
      rw [signedItem, ← opened.waits, if_neg waiting.2]
      exact opened.read_delta (.signature p.pendingSignature)
    · rename_i none
      apply Follows.nil
      have empty : pending = "" := by
        by_contra nonempty
        apply none
        rw [opened.type, opened.waits]
        exact ⟨opened.signed nonempty, nonempty⟩
      rw [signedItem, if_pos empty]
      exact opened.blocks
  apply Follows.append signed
  rintro a' ⟨before, blocks, read, below⟩
  apply Follows.one rfl
  have rest : (if p.blockType = .thinking then "" else p.pendingSignature) = "" := by
    split
    · rfl
    · rename_i other
      by_contra nonempty
      rw [opened.waits] at nonempty
      exact other (opened.type.trans (opened.signed nonempty))
  refine ⟨rfl, rfl, rest, ?_, ?_⟩
  · change a'.content = _
    rw [Assembly.content, blocks, List.map_append, read]
    rfl
  · change ∀ b ∈ a'.blocks, b.index < p.blockIndex + 1
    rw [blocks]
    intro b listed
    rcases List.mem_append.mp listed with early | last
    · have under := below b early
      omega
    · rw [List.mem_singleton.mp last]
      exact Int.lt_succ _

theorem endBlock_closed (closed : Closed items p a) :
    Keeps reading (fun p' a => p'.kept = p.kept ∧ Closed items p' a) p.endBlock a := by
  unfold endBlock
  rw [if_pos closed.type]
  exact .silent ⟨rfl, closed⟩

/-- A new block after a closed one. -/
theorem start_keeps (closed : Closed items p a) (isOpen : kind ≠ .none) :
    Keeps reading (fun p' a => p'.kept = p.kept ∧ Open kind items item none "" p' a)
      ({ p with blockType := kind }, [.contentBlockStart p.blockIndex item]) a := by
  apply Follows.one rfl
  refine ⟨rfl, rfl, isOpen, closed.pending, fun impossible => absurd rfl impossible, ?_⟩
  exact ⟨a.blocks, rfl, closed.content, closed.below⟩

/-- A piece of code whose end state is as the first one in what blocks do not touch. -/
theorem Keeps.kept {p₀ : StreamingProcessor} {out : Emitted} {a : Assembly}
    {P : StreamingProcessor → Assembly → Prop} {p : StreamingProcessor} (same : p.kept = p₀.kept)
    (keeps : Keeps reading (fun p' a => p'.kept = p.kept ∧ P p' a) out a) :
    Keeps reading (fun p' a => p'.kept = p₀.kept ∧ P p' a) out a :=
  keeps.mono fun _ now => ⟨now.1.trans same, now.2⟩

/-- A block of its own that holds a signature. -/
theorem emptyThinking_keeps (closed : Closed items p a) (signature : String) :
    Keeps reading
      (fun p' a => p'.kept = p.kept ∧ Closed (items ++ [thinkingItem "" signature]) p' a)
      (p.emitEmptyThinkingWithSignature signature) a := by
  have started : Keeps reading (fun p' a => p'.kept = p.kept ∧
      Open .thinking items { type := .thinking } none "" p' a)
      (p.startBlock .thinking { type := .thinking }) a := by
    apply (endBlock_closed closed).andThen
    intro a₁ ⟨same, closed⟩
    exact Keeps.kept same (start_keeps closed (by decide))
  apply started.andThen
  intro a₁ ⟨same, opened⟩
  apply (emitDelta_keeps opened rfl).andThen
  intro a₂ ⟨same', opened⟩
  apply (emitDelta_keeps opened rfl).andThen
  intro a₃ ⟨same'', opened⟩
  exact Keeps.kept (same''.trans (same'.trans same)) (endBlock_opened opened)

/-! ### Parts as they are read -/

/-- What parts do not touch. -/
def fixed (p : StreamingProcessor) : StreamingProcessor :=
  { p.kept with usedTool := false, generated := 0 }

/-- The open block of a view. -/
def Shown (opened : OpenBlock) (items : List ClaudeContentItem) (p : StreamingProcessor)
    (a : Assembly) : Prop :=
  match opened with
  | .none => Closed items p a
  | .text text => Open .text items (textItem text) none "" p a
  | .thinking thinking signature =>
    Open .thinking items (thinkingItem thinking "") none signature p a

/-- A view shows what has been read. -/
structure Shows (base : StreamingProcessor) (v : View) (p : StreamingProcessor) (a : Assembly) :
    Prop where
  opened : Shown v.opened v.closed p a
  usedTool : p.usedTool = v.usedTool
  generated : p.generated = v.generated
  fixed : p.fixed = base
  trailing : base.trailingSignature = ""

variable {base : StreamingProcessor} {v : View} {ids : Ids}

theorem Shows.untrailing (shows_ : Shows base v p a) : p.trailingSignature = "" := by
  have same : p.fixed.trailingSignature = base.trailingSignature := by rw [shows_.fixed]
  exact same.trans shows_.trailing

/-- Another view of a state that differs in the blocks only. -/
theorem Shows.next {p' : StreamingProcessor} {a' : Assembly} {v' : View}
    (shows_ : Shows base v p a) (same : p'.kept = p.kept) (opened : Shown v'.opened v'.closed p' a')
    (usedTool : v'.usedTool = v.usedTool) (generated : v'.generated = v.generated) :
    Shows base v' p' a' where
  opened := opened
  usedTool := by
    have used : p'.kept.usedTool = p.kept.usedTool := by rw [same]
    exact used.trans (shows_.usedTool.trans usedTool.symm)
  generated := by
    have made : p'.kept.generated = p.kept.generated := by rw [same]
    exact made.trans (shows_.generated.trans generated.symm)
  fixed := by
    rw [StreamingProcessor.fixed, same]
    exact shows_.fixed
  trailing := shows_.trailing

theorem endBlock_shows (shows_ : Shows base v p a) :
    Keeps reading (fun p' a => p'.kept = p.kept ∧ Closed v.content p' a) p.endBlock a := by
  have opened := shows_.opened
  unfold View.content
  cases open_ : v.opened with
  | none =>
    rw [open_] at opened
    rw [OpenBlock.items, List.append_nil]
    exact endBlock_closed opened
  | text said =>
    rw [open_] at opened
    exact endBlock_opened opened
  | thinking thought signature =>
    rw [open_] at opened
    have item : closing (thinkingItem thought "") none signature =
        thinkingItem thought signature := by
      unfold closing signedItem
      split
      · rename_i unsigned
        rw [unsigned]
        rfl
      · rfl
    have ended := endBlock_opened opened
    rw [item] at ended
    exact ended

theorem startBlock_shows (shows_ : Shows base v p a) (isOpen : kind ≠ .none) :
    Keeps reading (fun p' a => p'.kept = p.kept ∧ Open kind v.content item none "" p' a)
      (p.startBlock kind item) a := by
  apply (endBlock_shows shows_).andThen
  intro a₁ ⟨same, closed⟩
  exact Keeps.kept same (start_keeps closed isOpen)

theorem emitTrailing_shows (shows_ : Shows base v p a) : p.emitTrailing = (p, []) := by
  unfold emitTrailing
  rw [if_neg (not_not.mpr shows_.untrailing)]

theorem push_nil (v : View) : (v.push []).closed = v.content := List.append_nil _

/-- Unsigned text goes on in an open text block. -/
theorem text_shows (shows_ : Shows base v p a) {text : String} (nonempty : text ≠ "") :
    Keeps reading (Shows base (v.text text)) (p.processText text "") a := by
  unfold processText
  rw [if_neg nonempty, emitTrailing_shows shows_, andThen_silent, if_neg (not_not.mpr rfl)]
  have began : Keeps reading (fun p' a => p'.kept = p.kept ∧ ∃ before,
      Open .text (v.text text).closed (textItem before) none "" p' a ∧
        (v.text text).opened = .text (before ++ text)) (p.continueBlock .text { type := .text }) a := by
    unfold continueBlock
    cases open_ : v.opened with
    | text said =>
      have shown : Open .text v.closed (textItem said) none "" p a := by
        have opened := shows_.opened
        rw [open_] at opened
        exact opened
      rw [if_neg (not_not.mpr shown.type)]
      refine .silent ⟨rfl, said, ?_, ?_⟩
      · simpa only [View.text, open_] using shown
      · simp only [View.text, open_]
    | none =>
      have shown : Closed v.closed p a := by
        have opened := shows_.opened
        rw [open_] at opened
        exact opened
      rw [if_pos (by rw [shown.type]; decide)]
      apply (startBlock_shows shows_ (by decide)).mono
      intro a₁ ⟨same, opened⟩
      refine ⟨same, "", ?_, ?_⟩
      · simp only [View.text, open_, push_nil]
        exact opened
      · simp only [View.text, open_, String.empty_append]
    | thinking thought signature =>
      have shown : Open .thinking v.closed (thinkingItem thought "") none signature p a := by
        have opened := shows_.opened
        rw [open_] at opened
        exact opened
      rw [if_pos (by rw [shown.type]; decide)]
      apply (startBlock_shows shows_ (by decide)).mono
      intro a₁ ⟨same, opened⟩
      refine ⟨same, "", ?_, ?_⟩
      · simp only [View.text, open_, push_nil]
        exact opened
      · simp only [View.text, open_, String.empty_append]
  apply began.andThen
  intro a₁ ⟨same, before, opened, becomes⟩
  have talking : Open .text (v.text text).closed (textItem before) none ""
      { (p.continueBlock .text { type := .text }).1 with hasContent := true } a₁ :=
    opened.same rfl rfl rfl
  apply (emitDelta_keeps talking rfl).mono
  intro a₂ ⟨same', opened⟩
  refine shows_.next (same'.trans same) ?_ ?_ ?_
  · rw [becomes]
    exact opened
  · unfold View.text
    split <;> rfl
  · unfold View.text
    split <;> rfl

theorem said_shows (shows_ : Shows base v p a) {text : String} (nonempty : text ≠ "")
    (signature : String) :
    Keeps reading (Shows base (v.said text signature)) (p.processText text signature) a := by
  by_cases unsigned : signature = ""
  · rw [unsigned, View.said, if_neg (not_not.mpr rfl)]
    exact text_shows shows_ nonempty
  · unfold processText View.said
    rw [if_neg nonempty, emitTrailing_shows shows_, andThen_silent, if_pos unsigned,
      if_pos unsigned]
    apply (startBlock_shows shows_ (by decide)).andThen
    intro a₁ ⟨same, opened⟩
    apply (emitDelta_keeps opened rfl).andThen
    intro a₂ ⟨same', opened⟩
    apply (endBlock_opened opened).andThen
    intro a₃ ⟨same'', closed⟩
    apply (emptyThinking_keeps closed signature).mono
    intro a₄ ⟨sameAgain, closed⟩
    refine shows_.next (sameAgain.trans (same''.trans (same'.trans same))) ?_ rfl rfl
    have item : closing { type := .text, text := "" ++ text } none "" = textItem text := by
      rw [String.empty_append]
      rfl
    rw [List.append_assoc] at closed
    rw [← item]
    exact closed

theorem thought_shows (shows_ : Shows base v p a) (text signature : String) :
    Keeps reading (Shows base (v.thought text signature)) (p.processThinking text signature) a := by
  unfold processThinking
  rw [emitTrailing_shows shows_, andThen_silent]
  have began : Keeps reading (fun p' a => p'.kept = p.kept ∧ ∃ before signed,
      Open .thinking (v.thought text signature).closed (thinkingItem before "") none signed p' a ∧
        (v.thought text signature).opened =
          .thinking (before ++ text) (if signature ≠ "" then signature else signed))
      (p.continueBlock .thinking { type := .thinking }) a := by
    unfold continueBlock
    have signed : (if signature ≠ "" then signature else "") = signature := by
      split
      · rfl
      · rename_i unsigned
        exact (not_not.mp unsigned).symm
    cases open_ : v.opened with
    | thinking thought signed =>
      have shown : Open .thinking v.closed (thinkingItem thought "") none signed p a := by
        have opened := shows_.opened
        rw [open_] at opened
        exact opened
      rw [if_neg (not_not.mpr shown.type)]
      refine .silent ⟨rfl, thought, signed, ?_, ?_⟩
      · simpa only [View.thought, open_] using shown
      · simp only [View.thought, open_]
    | none =>
      have shown : Closed v.closed p a := by
        have opened := shows_.opened
        rw [open_] at opened
        exact opened
      rw [if_pos (by rw [shown.type]; decide)]
      apply (startBlock_shows shows_ (by decide)).mono
      intro a₁ ⟨same, opened⟩
      refine ⟨same, "", "", ?_, ?_⟩
      · simp only [View.thought, open_, push_nil]
        exact opened
      · simp only [View.thought, open_, String.empty_append, signed]
    | text said =>
      have shown : Open .text v.closed (textItem said) none "" p a := by
        have opened := shows_.opened
        rw [open_] at opened
        exact opened
      rw [if_pos (by rw [shown.type]; decide)]
      apply (startBlock_shows shows_ (by decide)).mono
      intro a₁ ⟨same, opened⟩
      refine ⟨same, "", "", ?_, ?_⟩
      · simp only [View.thought, open_, push_nil]
        exact opened
      · simp only [View.thought, open_, String.empty_append, signed]
  apply began.andThen
  intro a₁ ⟨same, before, signed, opened, becomes⟩
  generalize (p.continueBlock .thinking { type := .thinking }).1 = p₁ at same opened ⊢
  have thinking : Keeps reading (fun p' a => p'.kept = p₁.kept ∧
      Open .thinking (v.thought text signature).closed (thinkingItem (before ++ text) "") none
        signed p' a)
      (if text ≠ "" then ({ p₁ with hasContent := true } : StreamingProcessor).emitDelta
        (.thinking text) else (p₁, [])) a₁ := by
    split
    · have talking : Open .thinking (v.thought text signature).closed (thinkingItem before "") none
          signed { p₁ with hasContent := true } a₁ :=
        opened.same rfl rfl rfl
      exact emitDelta_keeps talking rfl
    · rename_i empty
      rw [not_not.mp empty, String.append_empty]
      rw [not_not.mp empty] at opened
      exact .silent ⟨rfl, opened⟩
  apply thinking.andThen
  intro a₂ ⟨same', opened⟩
  apply Keeps.silent
  refine shows_.next ?_ ?_ ?_ ?_
  · split
    · exact same'.trans same
    · exact same'.trans same
  · rw [becomes]
    split
    · exact ⟨opened.type, opened.isOpen, rfl, fun _ => rfl, opened.blocks⟩
    · exact opened
  · unfold View.thought
    split <;> rfl
  · unfold View.thought
    split <;> rfl

theorem call_shows (shows_ : Shows base v p a) (fc : GeminiFunctionCall) (signature : String) :
    Keeps reading (Shows base (v.call ids fc signature))
      (p.processFunctionCall ids fc signature) a := by
  unfold processFunctionCall
  dsimp only
  generalize called : ({ p with
    usedTool := true, hasContent := true, generated := fc.generated p.generated } :
    StreamingProcessor) = p₀
  have here : Shows base { v with usedTool := true, generated := fc.generated v.generated } p₀ a := by
    subst called
    refine ⟨?_, rfl, ?_, shows_.fixed, shows_.trailing⟩
    · have opened := shows_.opened
      dsimp only
      cases open_ : v.opened with
      | none =>
        rw [open_] at opened
        exact Closed.same opened rfl rfl rfl
      | text said =>
        rw [open_] at opened
        exact Open.same opened rfl rfl rfl
      | thinking thought signed =>
        rw [open_] at opened
        exact Open.same opened rfl rfl rfl
    · change fc.generated p.generated = fc.generated v.generated
      rw [shows_.generated]
  apply (startBlock_shows here (by decide)).andThen
  intro a₁ ⟨same, opened⟩
  generalize (p₀.startBlock .function _).1 = p₁ at same opened ⊢
  have argued : Keeps reading (fun p' a => p'.kept = p₁.kept ∧ Open .function v.content
      (toolItem ids p.generated fc signature (some "{}")) fc.args "" p' a)
      (p₁.emitArgs fc.args) a₁ := by
    unfold emitArgs
    cases given : fc.args with
    | some args =>
      apply emitDelta_keeps opened
      simp [Builder.add, toolItem]
    | none => exact .silent ⟨rfl, opened⟩
  apply argued.andThen
  intro a₂ ⟨same', opened⟩
  apply (endBlock_opened opened).mono
  intro a₃ ⟨same'', closed⟩
  refine here.next (same''.trans (same'.trans same)) ?_ rfl rfl
  have item : closing (toolItem ids p.generated fc signature (some "{}")) fc.args "" =
      toolItem ids v.generated fc signature (some (fc.args.getD "{}")) := by
    rw [shows_.generated]
    cases fc.args <;> rfl
  rw [item] at closed
  exact closed

/-- A part does to what has been read what it does to the view. -/
theorem processPart_shows (shows_ : Shows base v p a) (part : GeminiPart) :
    Keeps reading (Shows base (v.part ids part)) (p.processPart ids part) a := by
  unfold processPart View.part
  cases call : part.functionCall with
  | some fc =>
    dsimp only
    rw [emitTrailing_shows shows_, andThen_silent]
    exact call_shows shows_ fc _
  | none =>
    dsimp only
    have spoken : Keeps reading (Shows base
        (if part.thought then v.thought part.text part.thoughtSignature
          else if part.text ≠ "" then v.said part.text part.thoughtSignature else v))
        (if part.text ≠ "" ∨ part.thought then
          if part.thought then p.processThinking part.text part.thoughtSignature
          else p.processText part.text part.thoughtSignature
        else (p, [])) a := by
      by_cases thought : part.thought = true
      · rw [if_pos thought, if_pos (Or.inr thought), if_pos thought]
        exact thought_shows shows_ _ _
      · rw [if_neg thought]
        by_cases said : part.text ≠ ""
        · rw [if_pos said, if_pos (Or.inl said), if_neg thought]
          exact said_shows shows_ said _
        · rw [if_neg said, if_neg (by rintro (nonempty | other); exacts [said nonempty, thought other])]
          exact .silent shows_
    apply spoken.andThen
    intro a₁ shows'
    cases shown : part.image with
    | some image => exact text_shows shows' (part.image_nonempty shown)
    | none => exact .silent shows'

theorem processParts_shows (shows_ : Shows base v p a) (parts : List GeminiPart) :
    Keeps reading (Shows base (parts.foldl (fun v part => v.part ids part) v))
      (processParts ids parts p) a := by
  induction parts generalizing v p a with
  | nil => exact .silent shows_
  | cons part rest ih =>
    apply (processPart_shows shows_ part).andThen
    intro a₁ shows'
    exact ih shows'

/-! ### The end as it is read -/

/-- The block of the grounding. -/
def groundingItems (groundingText : String) : List ClaudeContentItem :=
  if groundingText = "" then [] else [textItem groundingText]

/-- The text of the grounding that has been captured. -/
def groundingText (p : StreamingProcessor) : String :=
  buildGroundingText { webSearchQueries := p.webSearchQueries, groundingChunks := p.groundingChunks }

theorem emitGrounding_keeps_reading (closed : Closed items p a) :
    Keeps reading
      (fun p' a => p'.kept = p.kept ∧ Closed (items ++ groundingItems p.groundingText) p' a)
      p.emitGrounding a := by
  unfold emitGrounding groundingItems
  change Keeps reading _ (if _ then (if p.groundingText ≠ "" then _ else _) else _) a
  by_cases captured : p.webSearchQueries ≠ [] ∨ p.groundingChunks ≠ []
  · rw [if_pos captured]
    by_cases empty : p.groundingText = ""
    · rw [if_neg (not_not.mpr empty), if_pos empty, List.append_nil]
      exact .silent ⟨rfl, closed⟩
    · rw [if_pos empty, if_neg empty]
      have started : Keeps reading (fun p' a => p'.kept = p.kept ∧
          Open .text items { type := .text } none "" p' a)
          (p.startBlock .text { type := .text }) a := by
        apply (endBlock_closed closed).andThen
        intro a₁ ⟨same, closed⟩
        exact Keeps.kept same (start_keeps closed (by decide))
      apply started.andThen
      intro a₁ ⟨same, opened⟩
      apply (emitDelta_keeps opened rfl).andThen
      intro a₂ ⟨same', opened⟩
      have item : closing { type := .text, text := "" ++ p.groundingText } none "" =
          textItem p.groundingText := by
        rw [String.empty_append]
        rfl
      rw [← item]
      exact Keeps.kept (same'.trans same) (endBlock_opened opened)
  · rw [if_neg captured]
    push Not at captured
    have empty : p.groundingText = "" := by
      unfold groundingText
      rw [captured.1, captured.2]
      rfl
    rw [if_pos empty, List.append_nil]
    exact .silent ⟨rfl, closed⟩

/-- What is read in the end. -/
structure Read (content : List ClaudeContentItem) (reason : String) (usage : ClaudeUsage)
    (p : StreamingProcessor) (a : Assembly) : Prop where
  content : a.content = content
  reason : a.stopReason = reason
  usage : a.usage = usage
  started : p.messageStartSent = true
  stopped : p.messageStopSent = true

theorem emitFinish_reads (shows_ : Shows base v p a) (started : base.messageStartSent = true)
    (finishReason : String) :
    Keeps reading (Read (v.content ++ groundingItems base.groundingText)
      (stopReason v.usedTool finishReason) base.usage) (p.emitFinish finishReason) a := by
  have kept : ∀ {p' : StreamingProcessor}, p'.kept = p.kept →
      p'.groundingText = base.groundingText ∧ p'.usedTool = v.usedTool ∧ p'.usage = base.usage ∧
        p'.messageStartSent = true ∧ p'.trailingSignature = "" := by
    intro p' same
    have fixed := shows_.fixed
    rw [StreamingProcessor.fixed, ← same] at fixed
    refine ⟨?_, ?_, ?_, ?_, ?_⟩
    · rw [← fixed]
      rfl
    · have used : p'.kept.usedTool = p.kept.usedTool := by rw [same]
      exact used.trans shows_.usedTool
    · rw [← fixed]
      rfl
    · rw [← fixed] at started
      exact started
    · have trailing := shows_.trailing
      rw [← fixed] at trailing
      exact trailing
  apply (endBlock_shows shows_).andThen
  intro a₁ ⟨same, closed⟩
  have untrailing : p.endBlock.1.emitTrailing = (p.endBlock.1, []) := by
    unfold emitTrailing
    rw [if_neg (not_not.mpr (kept same).2.2.2.2)]
  rw [untrailing, andThen_silent]
  have grounded := emitGrounding_keeps_reading closed
  rw [(kept same).1] at grounded
  apply grounded.andThen
  intro a₂ ⟨same', closed⟩
  obtain ⟨_, usedTool, usage, started', _⟩ := kept (same'.trans same)
  refine ⟨_, observe_reading _ _, ?_⟩
  have events : ∀ (reason : String) (usage : ClaudeUsage) (more : List ClaudeEvent),
      more = [] ∨ more = [.messageStop] →
      (.messageDelta reason usage :: more).foldl Assembly.read a₂ =
        { a₂ with stopReason := reason, usage } := by
    rintro reason usage more (rfl | rfl) <;> rfl
  rw [events _ _ _ (by split; exacts [Or.inl rfl, Or.inr rfl])]
  exact ⟨closed.content, by rw [← usedTool], usage, started', rfl⟩

/-- Nothing has been captured yet, and the stream has not ended. -/
structure Quiet (base : StreamingProcessor) : Prop where
  running : base.messageStopSent = false
  usage : base.usage = {}
  queries : base.webSearchQueries = []
  chunks : base.groundingChunks = []

/-- The message start leaves the blocks as they are. -/
theorem emitMessageStart_shows (shows_ : Shows base v p a) (quiet : Quiet base)
    (resp : V1InternalResponse) :
    Keeps reading (fun p' a => ∃ base', Shows base' v p' a ∧ Quiet base' ∧
      base'.messageStartSent = true) (p.emitMessageStart ids resp) a := by
  unfold emitMessageStart
  have same : p.messageStartSent = base.messageStartSent := by
    rw [← shows_.fixed]
    rfl
  split
  · rename_i started
    refine .silent ⟨base, shows_, quiet, ?_⟩
    rw [← same]
    exact started
  · apply Follows.one rfl
    refine ⟨{ base with messageStartSent := true }, ⟨?_, shows_.usedTool, shows_.generated, ?_,
      shows_.trailing⟩, ⟨quiet.running, quiet.usage, quiet.queries, quiet.chunks⟩, rfl⟩
    · have opened := shows_.opened
      cases open_ : v.opened with
      | none =>
        rw [open_] at opened
        exact ⟨opened.type, opened.pending, opened.content, opened.below⟩
      | text said =>
        rw [open_] at opened
        exact ⟨opened.type, opened.isOpen, opened.waits, opened.signed, opened.blocks⟩
      | thinking thought signed =>
        rw [open_] at opened
        exact ⟨opened.type, opened.isOpen, opened.waits, opened.signed, opened.blocks⟩
    · rw [← shows_.fixed]
      rfl

/-- A chunk that brings nothing but parts. -/
theorem processChunk_shows (shows_ : Shows base v p a) (quiet : Quiet base)
    {resp : V1InternalResponse} (usage : resp.response.usageMetadata = none)
    (grounding : resp.response.groundingMetadata = none)
    (finish : resp.response.finishReason = "") :
    Keeps reading (fun p' a => ∃ base',
      Shows base' (resp.response.parts.foldl (fun v part => v.part ids part) v) p' a ∧ Quiet base')
      (p.processChunk ids resp) a := by
  apply (emitMessageStart_shows shows_ quiet resp).andThen
  rintro a₁ ⟨base', shows', quiet', _⟩
  dsimp only
  rw [usage, grounding, finish]
  apply (processParts_shows shows' resp.response.parts).andThen
  intro a₂ shows''
  exact .silent ⟨base', shows'', quiet'⟩

/-- The usage that a chunk sets. -/
theorem Shows.counted (shows_ : Shows base v p a) (usage : ClaudeUsage) :
    Shows { base with usage } v { p with usage } a := by
  refine ⟨?_, shows_.usedTool, shows_.generated, ?_, shows_.trailing⟩
  · have opened := shows_.opened
    cases open_ : v.opened with
    | none =>
      rw [open_] at opened
      exact Closed.same opened rfl rfl rfl
    | text said =>
      rw [open_] at opened
      exact Open.same opened rfl rfl rfl
    | thinking thought signed =>
      rw [open_] at opened
      exact Open.same opened rfl rfl rfl
  · rw [← shows_.fixed]
    rfl

theorem Shows.captured (shows_ : Shows base v p a) (grounding : Option GeminiGroundingMetadata) :
    Shows (base.captureGrounding grounding) v (p.captureGrounding grounding) a := by
  unfold captureGrounding
  cases grounding with
  | none => exact shows_
  | some grounding =>
    refine ⟨?_, shows_.usedTool, shows_.generated, ?_, shows_.trailing⟩
    · have opened := shows_.opened
      cases open_ : v.opened with
      | none =>
        rw [open_] at opened
        exact Closed.same opened rfl rfl rfl
      | text said =>
        rw [open_] at opened
        exact Open.same opened rfl rfl rfl
      | thinking thought signed =>
        rw [open_] at opened
        exact Open.same opened rfl rfl rfl
    · rw [← shows_.fixed]
      rfl

theorem captured_groundingText {grounding : Option GeminiGroundingMetadata}
    (queries : base.webSearchQueries = []) (chunks : base.groundingChunks = []) :
    (base.captureGrounding grounding).groundingText = grounding.elim "" buildGroundingText := by
  unfold captureGrounding groundingText
  cases grounding with
  | none =>
    rw [queries, chunks]
    rfl
  | some grounding =>
    obtain ⟨webSearchQueries, groundingChunks⟩ := grounding
    dsimp only [Option.elim]
    have asked : (if webSearchQueries ≠ [] ∧ base.webSearchQueries = [] then webSearchQueries
        else base.webSearchQueries) = webSearchQueries := by
      rw [queries]
      split
      · rfl
      · rename_i empty
        by_contra other
        exact empty ⟨Ne.symm other, rfl⟩
    have linked : (if groundingChunks ≠ [] ∧ base.groundingChunks = [] then groundingChunks
        else base.groundingChunks) = groundingChunks := by
      rw [chunks]
      split
      · rfl
      · rename_i empty
        by_contra other
        exact empty ⟨Ne.symm other, rfl⟩
    rw [asked, linked]

theorem captureGrounding_usage (grounding : Option GeminiGroundingMetadata) :
    (base.captureGrounding grounding).usage = base.usage := by
  unfold captureGrounding
  split <;> rfl

theorem captureGrounding_started (grounding : Option GeminiGroundingMetadata) :
    (base.captureGrounding grounding).messageStartSent = base.messageStartSent := by
  unfold captureGrounding
  split <;> rfl

theorem captureGrounding_stopped (grounding : Option GeminiGroundingMetadata) :
    (base.captureGrounding grounding).messageStopSent = base.messageStopSent := by
  unfold captureGrounding
  split <;> rfl

/-- The chunk that brings the rest, and the end. -/
theorem last_reads (shows_ : Shows base v p a) (quiet : Quiet base) (resp : V1InternalResponse) :
    Keeps reading
      (Read ((resp.response.parts.foldl (fun v part => v.part ids part) v).content ++
          groundingItems (resp.response.groundingMetadata.elim "" buildGroundingText))
        (stopReason (resp.response.parts.foldl (fun v part => v.part ids part) v).usedTool
          resp.response.finishReason)
        (resp.response.usageMetadata.elim {} GeminiUsageMetadata.claudeUsage))
      (andThen (p.processChunk ids resp) finish) a := by
  unfold processChunk
  rw [andThen_assoc]
  apply (emitMessageStart_shows shows_ quiet resp).andThen
  rintro a₁ ⟨base', shows', quiet', started⟩
  generalize (p.emitMessageStart ids resp).1 = p₁ at shows' ⊢
  dsimp only
  rw [andThen_assoc]
  refine (processParts_shows (?_ : Shows
    { base' with usage := resp.response.usageMetadata.elim {} GeminiUsageMetadata.claudeUsage } v
    _ a₁) resp.response.parts).andThen ?_
  · cases resp.response.usageMetadata with
    | some usage => exact shows'.counted _
    | none =>
      have same : ({ base' with usage := {} } : StreamingProcessor) = base' := by
        rw [← quiet'.usage]
      rw [Option.elim_none, same]
      exact shows'
  intro a₂ shows''
  have captured := shows''.captured resp.response.groundingMetadata
  generalize (processParts ids resp.response.parts _).1 = p₂ at captured ⊢
  have finished := emitFinish_reads captured (by
    unfold captureGrounding
    split <;> exact started) resp.response.finishReason
  rw [captureGrounding_usage] at finished
  generalize counts : ({ base' with usage := _ } : StreamingProcessor) = base'' at captured finished
  have queries : base''.webSearchQueries = [] := by
    rw [← counts]
    exact quiet'.queries
  have chunks : base''.groundingChunks = [] := by
    rw [← counts]
    exact quiet'.chunks
  have usage : base''.usage = resp.response.usageMetadata.elim {} GeminiUsageMetadata.claudeUsage := by
    rw [← counts]
  rw [captured_groundingText queries chunks, usage] at finished
  by_cases ends : resp.response.finishReason = ""
  · rw [if_neg (not_not.mpr ends), andThen_silent]
    have sent : base''.messageStartSent = true := by
      rw [← counts]
      exact started
    have running : base''.messageStopSent = false := by
      rw [← counts]
      exact quiet'.running
    rw [← captureGrounding_started resp.response.groundingMetadata, ← captured.fixed] at sent
    rw [← captureGrounding_stopped resp.response.groundingMetadata, ← captured.fixed] at running
    change (p₂.captureGrounding resp.response.groundingMetadata).messageStartSent = true at sent
    change (p₂.captureGrounding resp.response.groundingMetadata).messageStopSent = false at running
    unfold finish
    rw [if_pos sent, if_neg (by rw [running]; decide)]
    rw [ends] at finished ⊢
    exact finished
  · rw [if_pos ends]
    apply finished.andThen
    intro a₃ read
    unfold finish
    rw [if_pos read.started, if_pos read.stopped]
    exact .silent read

end StreamingProcessor

end Sub2api.Antigravity
