import Sub2api.Antigravity.Assembly
import Sub2api.Antigravity.Stream

/-!
# Separate parts

`Sim` relates what the streaming converter has read with the builders of the other one, part by
part, as long as the parts are `Separate`: no signed text follows unsigned text that is still
collected, nothing is written to a text that ends with an image, and every call has arguments.
-/

namespace Sub2api.Antigravity

open Transducer

/-! ### Comparing messages -/

/-- A text or thinking block with nothing in it. -/
def ClaudeContentItem.empty (item : ClaudeContentItem) : Bool :=
  (item.type = .text && item.text = "") ||
    (item.type = .thinking && item.thinking = "" && item.signature = "")

/-- The blocks without the empty ones. -/
def comparable (items : List ClaudeContentItem) : List ClaudeContentItem :=
  items.filter fun item => !item.empty

/-- A streamed message agrees with a finished one. -/
def Agrees (streamed : Assembly) (message : ClaudeResponse) : Prop :=
  comparable streamed.content = comparable message.content ∧
    streamed.stopReason = message.stopReason ∧ streamed.usage = message.usage

instance (streamed : Assembly) (message : ClaudeResponse) : Decidable (Agrees streamed message) :=
  inferInstanceAs (Decidable (_ ∧ _))

theorem comparable_append (first later : List ClaudeContentItem) :
    comparable (first ++ later) = comparable first ++ comparable later :=
  List.filter_append ..

/-- The chunks of a response: all parts in order, and the rest in the last one. -/
structure Distributes (resp : GeminiResponse) (before : List V1InternalResponse)
    (last : V1InternalResponse) : Prop where
  parts : before.flatMap (·.response.parts) ++ last.response.parts = resp.parts
  unfinished : ∀ chunk ∈ before, chunk.response.finishReason = "" ∧
    chunk.response.groundingMetadata = none ∧ chunk.response.usageMetadata = none
  finishReason : last.response.finishReason = resp.finishReason
  grounding : last.response.groundingMetadata = resp.groundingMetadata
  usage : last.response.usageMetadata = resp.usageMetadata

/-! ### Separate parts -/

/-- What the last part that said something has left open. -/
inductive Last where
  | other
  | text
  | image
  deriving DecidableEq

/-- After a part's text or thought. -/
def Last.spoken (last : Last) (part : GeminiPart) : Last :=
  if part.thought then .other
  else if part.text ≠ "" then if part.thoughtSignature ≠ "" then .other else .text
  else last

def Last.next (last : Last) (part : GeminiPart) : Last :=
  if part.functionCall ≠ none then .other
  else if part.image ≠ none then .image
  else last.spoken part

/-- A text is not signed after an unsigned one, and unsigned not after an image. -/
def Last.TextFine (last : Last) (signature : String) : Prop :=
  if signature ≠ "" then last ≠ .text else last ≠ .image

def Last.Fine (last : Last) (part : GeminiPart) : Prop :=
  match part.functionCall with
  | some fc => fc.args ≠ none
  | none =>
    (part.thought = false → part.text ≠ "" → last.TextFine part.thoughtSignature) ∧
      (part.image ≠ none → last.spoken part ≠ .image)

/-- The parts of a response on which the converters agree. -/
def Separate (last : Last) : List GeminiPart → Prop
  | [] => True
  | part :: rest => last.Fine part ∧ Separate (last.next part) rest

/-! ### Collecting -/

namespace NonStreamingProcessor

/-- Everything that was collected is in these blocks. -/
def settled (q : NonStreamingProcessor) (blocks : List ClaudeContentItem) : NonStreamingProcessor :=
  { q with contentBlocks := blocks, textBuilder := "", thinkingBuilder := "",
           thinkingSignature := "" }

/-- Nothing is collected. -/
structure Idle (q : NonStreamingProcessor) : Prop where
  text : q.textBuilder = ""
  thinking : q.thinkingBuilder = ""
  signature : q.thinkingSignature = ""

variable {q : NonStreamingProcessor}

theorem flushText_empty (empty : q.textBuilder = "") : q.flushText = q := if_pos empty

theorem flushThinking_empty (empty : q.thinkingBuilder = "") (unsigned : q.thinkingSignature = "") :
    q.flushThinking = q := if_pos ⟨empty, unsigned⟩

theorem flushTrailing_none (untrailing : q.trailingSignature = "")
    (flush : NonStreamingProcessor → NonStreamingProcessor) : q.flushTrailing flush = q :=
  if_neg (not_not.mpr untrailing)

theorem Idle.settled (idle : q.Idle) : q = q.settled q.contentBlocks := by
  obtain ⟨text, thinking, signature⟩ := idle
  cases q
  dsimp only at text thinking signature
  subst text thinking signature
  rfl

theorem flushThinking_settled (text : q.textBuilder = "")
    (collected : ¬(q.thinkingBuilder = "" ∧ q.thinkingSignature = "")) :
    q.flushThinking =
      q.settled (q.contentBlocks ++ [thinkingItem q.thinkingBuilder q.thinkingSignature]) := by
  unfold flushThinking
  rw [if_neg collected]
  cases q
  dsimp only at text
  subst text
  rfl

theorem flushText_settled (thinking : q.thinkingBuilder = "") (signature : q.thinkingSignature = "")
    (nonempty : q.textBuilder ≠ "") :
    q.flushText = q.settled (q.contentBlocks ++ [textItem q.textBuilder]) := by
  unfold flushText
  rw [if_neg nonempty]
  cases q
  dsimp only at thinking signature
  subst thinking signature
  rfl

theorem flushText_extends (q : NonStreamingProcessor) :
    q.contentBlocks <+: q.flushText.contentBlocks := by
  unfold flushText
  split
  · exact List.prefix_refl _
  · exact List.prefix_append _ _

theorem flushThinking_extends (q : NonStreamingProcessor) :
    q.contentBlocks <+: q.flushThinking.contentBlocks := by
  unfold flushThinking
  split
  · exact List.prefix_refl _
  · exact List.prefix_append _ _

theorem flushTrailing_extends (q : NonStreamingProcessor)
    {flush : NonStreamingProcessor → NonStreamingProcessor}
    (grows : ∀ q, q.contentBlocks <+: (flush q).contentBlocks) :
    q.contentBlocks <+: (q.flushTrailing flush).contentBlocks := by
  unfold flushTrailing
  split
  · exact (grows q).trans (List.prefix_append _ _)
  · exact List.prefix_refl _

theorem processThinking_extends (q : NonStreamingProcessor) (text signature : String) :
    q.contentBlocks <+: (q.processThinking text signature).contentBlocks :=
  (flushText_extends q).trans (flushTrailing_extends _ flushThinking_extends)

theorem processText_extends (q : NonStreamingProcessor) (text signature : String) :
    q.contentBlocks <+: (q.processText text signature).contentBlocks := by
  unfold processText
  split
  · split <;> exact List.prefix_refl _
  · have flushed : q.contentBlocks <+:
        (q.flushThinking.flushTrailing flushText).contentBlocks :=
      (flushThinking_extends q).trans (flushTrailing_extends _ flushText_extends)
    dsimp only
    split
    · exact (flushed.trans (List.prefix_append _ _)).trans (List.prefix_append _ _)
    · exact flushed

theorem processImage_extends (q : NonStreamingProcessor) (image : String) :
    q.contentBlocks <+: (q.processImage image).contentBlocks :=
  (flushThinking_extends q).trans
    (flushText_extends { q.flushThinking with textBuilder := q.flushThinking.textBuilder ++ image })

theorem processFunctionCall_extends (ids : Ids) (q : NonStreamingProcessor) (fc : GeminiFunctionCall)
    (signature : String) :
    q.contentBlocks <+: (q.processFunctionCall ids fc signature).contentBlocks := by
  have flushed := (flushThinking_extends q).trans (flushText_extends _)
  have trailed := flushed.trans (flushTrailing_extends _ fun q => List.prefix_refl q.contentBlocks)
  exact trailed.trans (List.prefix_append _ _)

theorem processGrounding_extends (q : NonStreamingProcessor) (grounding : GeminiGroundingMetadata) :
    q.contentBlocks <+: (q.processGrounding grounding).contentBlocks := by
  unfold processGrounding
  dsimp only
  split
  · exact List.prefix_refl _
  · have flushed := (flushThinking_extends q).trans (flushText_extends _)
    exact flushed.trans (flushText_extends { q.flushThinking.flushText with
      textBuilder := q.flushThinking.flushText.textBuilder ++ buildGroundingText grounding })

end NonStreamingProcessor

/-! ### As long as the parts are separate -/

section Simulation

open NonStreamingProcessor

variable {v : View} {q : NonStreamingProcessor} {last : Last} {ids : Ids}

/-- What the other converter has collected is what is open in the stream. -/
def Collected (last : Last) (v : View) (q : NonStreamingProcessor) : Prop :=
  match last, v.opened with
  | .other, .none => comparable v.closed = comparable q.contentBlocks ∧ q.Idle
  | .other, .thinking thinking signature =>
    comparable v.closed = comparable q.contentBlocks ∧ q.textBuilder = "" ∧
      q.thinkingBuilder = thinking ∧ q.thinkingSignature = signature
  | .text, .text text =>
    comparable v.closed = comparable q.contentBlocks ∧ q.textBuilder = text ∧ text ≠ "" ∧
      q.thinkingBuilder = "" ∧ q.thinkingSignature = ""
  | .image, .text text =>
    comparable (v.closed ++ [textItem text]) = comparable q.contentBlocks ∧ text ≠ "" ∧ q.Idle
  | _, _ => False

structure Sim (last : Last) (v : View) (q : NonStreamingProcessor) : Prop where
  collected : Collected last v q
  usedTool : q.hasToolCall = v.usedTool
  generated : q.generated = v.generated
  untrailing : q.trailingSignature = ""

/-- Flushed, the blocks are those of the stream. -/
structure Flushed (v : View) (q flushed : NonStreamingProcessor) : Prop where
  blocks : comparable v.content = comparable flushed.contentBlocks
  settled : flushed = q.settled flushed.contentBlocks

theorem comparable_text {text : String} (nonempty : text ≠ "") :
    comparable [textItem text] = [textItem text] := by
  simp [comparable, ClaudeContentItem.empty, textItem, nonempty]

theorem Sim.flushed (sim : Sim last v q) : Flushed v q q.flushThinking.flushText := by
  have collected := sim.collected
  unfold Collected at collected
  split at collected
  · rename_i none
    obtain ⟨same, idle⟩ := collected
    rw [flushThinking_empty idle.thinking idle.signature, flushText_empty idle.text]
    refine ⟨?_, idle.settled⟩
    rw [View.content, none, OpenBlock.items, List.append_nil]
    exact same
  · rename_i thinking signature opened
    obtain ⟨same, text, rfl, rfl⟩ := collected
    by_cases empty : q.thinkingBuilder = "" ∧ q.thinkingSignature = ""
    · rw [flushThinking_empty empty.1 empty.2, flushText_empty text]
      refine ⟨?_, Idle.settled ⟨text, empty.1, empty.2⟩⟩
      rw [View.content, opened, comparable_append, same, empty.1, empty.2]
      exact List.append_nil _
    · rw [flushThinking_settled text empty, flushText_empty rfl]
      refine ⟨?_, rfl⟩
      rw [View.content, opened, comparable_append, same, ← comparable_append]
      rfl
  · rename_i said opened
    obtain ⟨same, rfl, nonempty, thinking, signature⟩ := collected
    rw [flushThinking_empty thinking signature, flushText_settled thinking signature nonempty]
    refine ⟨?_, rfl⟩
    rw [View.content, opened, comparable_append, same, ← comparable_append]
    rfl
  · rename_i said opened
    obtain ⟨same, nonempty, idle⟩ := collected
    rw [flushThinking_empty idle.thinking idle.signature, flushText_empty idle.text]
    refine ⟨?_, idle.settled⟩
    rw [View.content, opened]
    exact same
  · exact collected.elim

/-- Without text collected, the thought is what is flushed. -/
theorem Sim.flushedThinking (sim : Sim last v q) (other : last ≠ .text) :
    Flushed v q q.flushThinking ∧ q.textBuilder = "" := by
  have flushed := sim.flushed
  have collected := sim.collected
  have silent : q.textBuilder = "" := by
    unfold Collected at collected
    split at collected
    · exact collected.2.text
    · exact collected.2.1
    · exact absurd rfl other
    · exact collected.2.2.text
    · exact collected.elim
  have after_ : q.flushThinking.textBuilder = "" := by
    unfold flushThinking
    split <;> exact silent
  rw [flushText_empty after_] at flushed
  exact ⟨flushed, silent⟩

/-- Without a thought collected, the text is what is flushed. -/
theorem Sim.flushedText (sim : Sim last v q)
    (silent : ∀ thinking signature, v.opened ≠ .thinking thinking signature) :
    Flushed v q q.flushText := by
  have flushed := sim.flushed
  have collected := sim.collected
  have thoughtless : q.thinkingBuilder = "" ∧ q.thinkingSignature = "" := by
    unfold Collected at collected
    split at collected
    · exact ⟨collected.2.thinking, collected.2.signature⟩
    · rename_i thinking signature opened
      exact absurd opened (silent thinking signature)
    · exact ⟨collected.2.2.2.1, collected.2.2.2.2⟩
    · exact ⟨collected.2.2.thinking, collected.2.2.signature⟩
    · exact collected.elim
  rw [flushThinking_empty thoughtless.1 thoughtless.2] at flushed
  exact flushed

theorem Flushed.kept {flushed : NonStreamingProcessor} (here : Flushed v q flushed) :
    flushed.textBuilder = "" ∧ flushed.thinkingBuilder = "" ∧ flushed.thinkingSignature = "" ∧
      flushed.trailingSignature = q.trailingSignature ∧ flushed.hasToolCall = q.hasToolCall ∧
      flushed.generated = q.generated := by
  rw [here.settled]
  exact ⟨rfl, rfl, rfl, rfl, rfl, rfl⟩

/-- A call after everything is flushed. -/
theorem Sim.call (sim : Sim last v q) (fc : GeminiFunctionCall) (signature : String) :
    ∃ blocks, comparable v.content = comparable blocks ∧
      (q.processFunctionCall ids fc signature).contentBlocks =
        blocks ++ [toolItem ids v.generated fc signature fc.args] ∧
      (q.processFunctionCall ids fc signature).Idle ∧
      (q.processFunctionCall ids fc signature).hasToolCall = true ∧
      (q.processFunctionCall ids fc signature).generated = fc.generated v.generated ∧
      (q.processFunctionCall ids fc signature).trailingSignature = "" := by
  have flushed := sim.flushed
  obtain ⟨text, thinking, signed, trailing, _, generated⟩ := flushed.kept
  rw [sim.untrailing] at trailing
  rw [sim.generated] at generated
  unfold processFunctionCall
  rw [flushTrailing_none trailing]
  refine ⟨_, flushed.blocks, ?_, ⟨text, thinking, signed⟩, rfl, ?_, trailing⟩
  · unfold toolItem
    rw [← generated]
    rfl
  · change fc.generated q.flushThinking.flushText.generated = _
    rw [generated]

theorem Sim.callFine (sim : Sim last v q) {fc : GeminiFunctionCall} (fine : fc.args ≠ none)
    (signature : String) :
    Sim .other (v.call ids fc signature) (q.processFunctionCall ids fc signature) := by
  obtain ⟨blocks, same, appended, idle, used, generated, untrailing⟩ := sim.call fc signature
  obtain ⟨args, given⟩ := Option.ne_none_iff_exists'.mp fine
  refine ⟨⟨?_, idle⟩, used, generated, untrailing⟩
  change comparable (v.content ++ [_]) = _
  rw [appended, comparable_append, comparable_append, same, given]
  rfl

theorem Sim.thought (sim : Sim last v q) (text signature : String) :
    Sim .other (v.thought text signature) (q.processThinking text signature) := by
  have started : (∀ thinking signature, v.opened ≠ .thinking thinking signature) →
      Sim .other { v.push [] with opened := .thinking text signature }
        (q.processThinking text signature) := by
    intro silent
    have flushed := sim.flushedText silent
    obtain ⟨empty, thinking, signed, trailing, used, generated⟩ := flushed.kept
    rw [sim.untrailing] at trailing
    unfold processThinking
    rw [flushTrailing_none trailing]
    refine ⟨⟨?_, empty, ?_, ?_⟩, used.trans sim.usedTool, generated.trans sim.generated, trailing⟩
    · rw [StreamingProcessor.push_nil]
      exact flushed.blocks
    · change q.flushText.thinkingBuilder ++ text = text
      rw [thinking, String.empty_append]
    · change (if signature ≠ "" then signature else q.flushText.thinkingSignature) = signature
      rw [signed]
      split
      · rfl
      · rename_i unsigned
        exact (not_not.mp unsigned).symm
  unfold View.thought
  cases open_ : v.opened with
  | none => exact started (by rw [open_]; intro _ _ impossible; cases impossible)
  | text said => exact started (by rw [open_]; intro _ _ impossible; cases impossible)
  | thinking thinking signed =>
    have collected := sim.collected
    unfold Collected at collected
    rw [open_] at collected
    cases last with
    | text => exact collected.elim
    | image => exact collected.elim
    | other =>
      obtain ⟨same, empty, rfl, rfl⟩ := collected
      unfold processThinking
      rw [flushText_empty empty, flushTrailing_none sim.untrailing]
      exact ⟨⟨same, empty, rfl, rfl⟩, sim.usedTool, sim.generated, sim.untrailing⟩

theorem Sim.signed (sim : Sim last v q) (other : last ≠ .text) {text signature : String}
    (nonempty : text ≠ "") (signed : signature ≠ "") :
    Sim .other (v.said text signature) (q.processText text signature) := by
  obtain ⟨flushed, _⟩ := sim.flushedThinking other
  obtain ⟨empty, thinking, unsigned, trailing, used, generated⟩ := flushed.kept
  rw [sim.untrailing] at trailing
  unfold View.said processText
  rw [if_pos signed, if_neg nonempty, flushTrailing_none trailing]
  dsimp only
  rw [if_pos signed]
  refine ⟨⟨?_, empty, thinking, unsigned⟩, used.trans sim.usedTool, generated.trans sim.generated,
    trailing⟩
  change comparable (v.content ++ [_, _]) = comparable ((q.flushThinking.contentBlocks ++ [_]) ++ [_])
  rw [List.append_assoc, comparable_append, comparable_append, flushed.blocks]
  rfl

/-- Unsigned text is collected, when it is not after an image. -/
theorem Sim.unsigned (sim : Sim last v q) (other : last ≠ .image) {text : String}
    (nonempty : text ≠ "") : Sim .text (v.text text) (q.processText text "") := by
  unfold processText
  rw [if_neg nonempty]
  have longer : ∀ before : String, before ++ text ≠ "" := by
    intro before empty
    exact nonempty (String.append_eq_empty_iff.mp empty).2
  by_cases going : last = .text
  · subst going
    have collected := sim.collected
    unfold Collected at collected
    unfold View.text
    cases open_ : v.opened with
    | none =>
      rw [open_] at collected
      exact collected.elim
    | thinking thinking signature =>
      rw [open_] at collected
      exact collected.elim
    | text said =>
      rw [open_] at collected
      obtain ⟨same, rfl, _, thinking, signature⟩ := collected
      rw [flushThinking_empty thinking signature, flushTrailing_none sim.untrailing]
      exact ⟨⟨same, rfl, longer _, thinking, signature⟩, sim.usedTool, sim.generated,
        sim.untrailing⟩
  · obtain ⟨flushed, _⟩ := sim.flushedThinking going
    obtain ⟨empty, thinking, unsigned, trailing, used, generated⟩ := flushed.kept
    rw [sim.untrailing] at trailing
    rw [flushTrailing_none trailing]
    have opened : v.text text = { v.push [] with opened := .text text } := by
      have collected := sim.collected
      unfold Collected at collected
      unfold View.text
      cases open_ : v.opened with
      | none => rfl
      | thinking thinking signature => rfl
      | text said =>
        rw [open_] at collected
        cases last with
        | other => exact collected.elim
        | text => exact absurd rfl going
        | image => exact absurd rfl other
    rw [opened]
    refine ⟨⟨?_, ?_, nonempty, thinking, unsigned⟩, used.trans sim.usedTool,
      generated.trans sim.generated, trailing⟩
    · rw [StreamingProcessor.push_nil]
      exact flushed.blocks
    · change q.flushThinking.textBuilder ++ text = text
      rw [empty, String.empty_append]

/-- An image is text that is flushed at once. -/
theorem Sim.image (sim : Sim last v q) (other : last ≠ .image) {image : String}
    (nonempty : image ≠ "") : Sim .image (v.text image) (q.processImage image) := by
  have collecting := sim.unsigned other nonempty
  have same : q.processImage image = (q.processText image "").flushText := by
    have untrailing : q.flushThinking.trailingSignature = "" := by
      unfold flushThinking
      split <;> exact sim.untrailing
    unfold processText
    rw [if_neg nonempty, flushTrailing_none untrailing]
    rfl
  rw [same]
  have flushed := collecting.flushedText (by
    intro thinking signature
    unfold View.text
    split <;> exact fun impossible => by cases impossible)
  obtain ⟨empty, thinking, unsigned, trailing, used, generated⟩ := flushed.kept
  have collected := collecting.collected
  refine ⟨?_, used.trans collecting.usedTool, generated.trans collecting.generated,
    trailing.trans collecting.untrailing⟩
  unfold Collected at collected ⊢
  have blocks := flushed.blocks
  unfold View.content at blocks
  cases open_ : (v.text image).opened with
  | none =>
    rw [open_] at collected
    exact collected.elim
  | thinking thinking signature =>
    rw [open_] at collected
    exact collected.elim
  | text said =>
    rw [open_] at collected blocks
    exact ⟨blocks, collected.2.2.1, empty, thinking, unsigned⟩

/-- A part that is fine. -/
theorem Sim.part (sim : Sim last v q) {part : GeminiPart} (fine : last.Fine part) :
    Sim (last.next part) (v.part ids part) (q.processPart ids part) := by
  unfold Last.Fine at fine
  unfold Last.next View.part processPart
  cases call : part.functionCall with
  | some fc =>
    rw [call] at fine
    exact sim.callFine fine _
  | none =>
    rw [call] at fine
    obtain ⟨textFine, imageFine⟩ := fine
    dsimp only
    rw [if_neg (not_not.mpr rfl)]
    have spoken : Sim (last.spoken part)
        (if part.thought then v.thought part.text part.thoughtSignature
          else if part.text ≠ "" then v.said part.text part.thoughtSignature else v)
        (if part.text ≠ "" ∨ part.thought then
          if part.thought then q.processThinking part.text part.thoughtSignature
          else q.processText part.text part.thoughtSignature
        else q) := by
      unfold Last.spoken
      by_cases thought : part.thought = true
      · rw [if_pos thought, if_pos thought, if_pos (Or.inr thought), if_pos thought]
        exact sim.thought _ _
      · rw [if_neg thought, if_neg thought]
        by_cases said : part.text ≠ ""
        · rw [if_pos said, if_pos said, if_pos (Or.inl said), if_neg thought]
          have fine := textFine (by simpa using thought) said
          unfold Last.TextFine at fine
          by_cases signed : part.thoughtSignature ≠ ""
          · rw [if_pos signed] at fine ⊢
            exact sim.signed fine said signed
          · rw [if_neg signed] at fine ⊢
            unfold View.said
            rw [if_neg signed, not_not.mp signed]
            exact sim.unsigned fine said
        · have silent : ¬(part.text ≠ "" ∨ part.thought = true) := by
            rintro (nonempty | other)
            · exact said nonempty
            · exact thought other
          rw [if_neg said, if_neg said, if_neg silent]
          exact sim
    cases shown : part.image with
    | some image =>
      rw [shown] at imageFine
      exact spoken.image (imageFine (Option.some_ne_none _)) (part.image_nonempty shown)
    | none => exact spoken

end Simulation

end Sub2api.Antigravity
