import Mathlib.Algebra.Order.BigOperators.Group.List
import Sub2api.ApiCompat.CanonicalStream

/-!
# Streamed and finished responses agree

* `foldl_itemEvents` — what one item of the canonical stream adds to the assembled message;
* `streams_agree_iff` — over every response and every way of cutting its texts: the assembled
  message is the finished one exactly when every web search is completed;
* `failed_search_disagrees` — a web search that failed.
-/

namespace Sub2api.ApiCompat

open Go Transducer ToAnthropic

/-! ### Converter and reader together -/

/-- The converter's state and what a client has read so far. -/
abbrev Joint := ResponsesEventToAnthropicState × Assembly

def Joint.next (x : Joint) (evt : ResponsesStreamEvent) : Joint :=
  let out := responsesEventToAnthropicEvents x.1 evt
  (out.1, out.2.foldl Assembly.read x.2)

theorem foldl_next (s : ResponsesEventToAnthropicState) (a : Assembly)
    (events : List ResponsesStreamEvent) :
    events.foldl Joint.next (s, a) =
      ((run responsesEventToAnthropicEvents s events).1,
        (run responsesEventToAnthropicEvents s events).2.foldl Assembly.read a) := by
  induction events generalizing s a with
  | nil => rfl
  | cons evt rest ih =>
    rw [List.foldl_cons, Joint.next, ih, run_cons, List.foldl_append]

/-! ### Reading -/

theorem read_blockStart (a : Assembly) (index : ℤ) (block : AnthropicContentBlock) :
    a.read (blockStart index block) =
      { a with blocks := a.blocks ++ [{ index := index, block := block }] } :=
  rfl

theorem read_blockStop (a : Assembly) (index : ℤ) : a.read (blockStop index) = a := rfl

/-- A delta for the last block leaves the earlier ones alone. -/
theorem read_blockDelta {older : List Builder} {last : Builder} {stop : Option String}
    {delta : AnthropicDelta} (earlier : ∀ b ∈ older, b.index < last.index) :
    Assembly.read { blocks := older ++ [last], stopReason := stop }
        (blockDelta last.index delta) =
      { blocks := older ++ [last.add delta], stopReason := stop } := by
  have unchanged : (older.map fun b => if b.index = last.index then b.add delta else b) = older := by
    refine (List.map_congr_left fun b member => ?_).trans (List.map_id older)
    exact if_neg (ne_of_lt (earlier b member))
  simp [Assembly.read, blockDelta, unchanged]

theorem content_snoc (a : Assembly) (b : Builder) :
    ({ a with blocks := a.blocks ++ [b] } : Assembly).content = a.content ++ [b.finish] := by
  simp [Assembly.content]

/-! ### Between items -/

/-- No block is open, and the next text is that of part `j` of item `i` or a later one. -/
structure Idle (i j : ℤ) (x : Joint) : Prop where
  started : x.1.messageStartSent = true
  running : x.1.messageStopSent = false
  closed : x.1.contentBlockOpen = false
  older : ∀ b ∈ x.2.blocks, b.index < x.1.contentBlockIndex
  fresh : ∀ part : ResponsesTextPart, i < part.1 ∨ part.1 = i ∧ j ≤ part.2 →
    x.1.textByPart part = none

theorem Idle.later {i j i' j' : ℤ} {x : Joint} (idle : Idle i j x)
    (later : i < i' ∨ i = i' ∧ j ≤ j') : Idle i' j' x := by
  refine ⟨idle.started, idle.running, idle.closed, idle.older, fun part ahead => ?_⟩
  refine idle.fresh part ?_
  omega

/-- What some events add to the message: blocks, a tool call, some text. -/
structure Adds (x x' : Joint) (blocks : List AnthropicContentBlock) (call spoke : Bool) :
    Prop where
  blocks : comparable x'.2.content = comparable x.2.content ++ comparable blocks
  call : x'.1.hasToolCall = (x.1.hasToolCall || call)
  spoke : x'.1.textDelivered = (x.1.textDelivered || spoke)
  stop : x'.2.stopReason = x.2.stopReason

theorem comparable_append (first later : List AnthropicContentBlock) :
    comparable (first ++ later) = comparable first ++ comparable later := by
  simp [comparable]

theorem Adds.refl (x : Joint) : Adds x x [] false false :=
  ⟨by simp [comparable], by simp, by simp, rfl⟩

theorem Adds.trans {x y z : Joint} {first later : List AnthropicContentBlock}
    {call spoke call' spoke' : Bool} (adds : Adds x y first call spoke)
    (adds' : Adds y z later call' spoke') :
    Adds x z (first ++ later) (call || call') (spoke || spoke') where
  blocks := by rw [adds'.blocks, adds.blocks, comparable_append, List.append_assoc]
  call := by rw [adds'.call, adds.call, Bool.or_assoc]
  spoke := by rw [adds'.spoke, adds.spoke, Bool.or_assoc]
  stop := adds'.stop.trans adds.stop

/-! ### Texts -/

section Texts

variable {i j : ℤ} {x : Joint}

theorem Idle.close (idle : Idle i j x) : closeCurrentBlock x.1 = (x.1, []) := by
  simp [closeCurrentBlock, idle.closed]

/-- An event that the converter has no use for. -/
theorem next_silent {evt : ResponsesStreamEvent}
    (silent : responsesEventToAnthropicEvents x.1 evt = (x.1, [])) : x.next evt = x := by
  simp [Joint.next, silent]

/-- A text block is open in which `text` was delivered for part `j` of item `i`. -/
def speaking (i j : ℤ) (text : String) (x : Joint) : Joint :=
  ({ x.1 with
     contentBlockOpen := true
     currentBlockType := some .text
     textByPart := Function.update x.1.textByPart (i, j) (some text)
     textDelivered := true },
   { x.2 with
     blocks := x.2.blocks ++
       [{ index := x.1.contentBlockIndex, block := { type := .text, text := text } }] })

theorem next_first_piece (idle : Idle i j x) {piece : String} (spoken : piece ≠ "") :
    x.next { type := .outputTextDelta, outputIndex := i, contentIndex := j, delta := piece } =
      speaking i j piece x := by
  have unspoken : x.1.textByPart (i, j) = none := idle.fresh _ (by simp)
  have read := @read_blockDelta x.2.blocks
    { index := x.1.contentBlockIndex, block := { type := .text } } x.2.stopReason
    { type := .text, text := piece } idle.older
  simp [Joint.next, responsesEventToAnthropicEvents, emitText, openTextBlock, textPartOf,
    idle.closed, idle.close, spoken, unspoken, read_blockStart, read, speaking, Builder.add]

theorem next_piece (idle : Idle i j x) (text piece : String) :
    (speaking i j text x).next
        { type := .outputTextDelta, outputIndex := i, contentIndex := j, delta := piece } =
      speaking i j (text ++ piece) x := by
  have read := @read_blockDelta x.2.blocks
    { index := x.1.contentBlockIndex, block := { type := .text, text := text } } x.2.stopReason
    { type := .text, text := piece } idle.older
  by_cases empty : piece = ""
  · subst empty
    simp [Joint.next, responsesEventToAnthropicEvents, emitText]
  · simp [Joint.next, responsesEventToAnthropicEvents, emitText, openTextBlock, textPartOf, empty,
      read, speaking, Builder.add]

theorem foldl_pieces (idle : Idle i j x) (text : String) (pieces : List String) :
    (pieces.map fun piece => ({ type := .outputTextDelta, outputIndex := i, contentIndex := j
                                delta := piece } : ResponsesStreamEvent)).foldl Joint.next
        (speaking i j text x) =
      speaking i j (text ++ String.join pieces) x := by
  induction pieces generalizing text with
  | nil => simp
  | cons piece rest ih =>
    rw [List.map_cons, List.foldl_cons, next_piece idle, ih, String.join_cons,
      String.append_assoc]

/-- The text of a part, in pieces: a block is opened by the first that is not empty. -/
theorem foldl_text (idle : Idle i j x) (pieces : List String) :
    (pieces.map fun piece => ({ type := .outputTextDelta, outputIndex := i, contentIndex := j
                                delta := piece } : ResponsesStreamEvent)).foldl Joint.next x =
      if String.join pieces = "" then x else speaking i j (String.join pieces) x := by
  induction pieces with
  | nil => simp
  | cons piece rest ih =>
    rw [List.map_cons, List.foldl_cons, String.join_cons]
    by_cases empty : piece = ""
    · subst empty
      have silent : x.next { type := .outputTextDelta, outputIndex := i, contentIndex := j
                             delta := "" } = x :=
        next_silent (by simp [responsesEventToAnthropicEvents, emitText])
      rw [silent, ih, String.empty_append]
    · rw [next_first_piece idle empty, foldl_pieces idle, if_neg (by simp [empty])]

/-- The open text block is closed by the end of its text. -/
theorem next_textDone (idle : Idle i j x) (text : String) :
    let x' := (speaking i j text x).next
      { type := .outputTextDone, outputIndex := i, contentIndex := j, text := text }
    Idle i (j + 1) x' ∧
      x'.2 = (speaking i j text x).2 ∧ x'.1.hasToolCall = x.1.hasToolCall ∧
        x'.1.textDelivered = true := by
  have recovered : recoverText text (i, j) (speaking i j text x).1 =
      ((speaking i j text x).1, []) := by
    simp [recoverText, speaking]
  intro x'
  have ends : x' = ({ (speaking i j text x).1 with
      contentBlockOpen := false
      contentBlockIndex := x.1.contentBlockIndex + 1
      currentToolName := ""
      currentToolArgs := ""
      currentToolHadDelta := false }, (speaking i j text x).2) := by
    simp [x', Joint.next, responsesEventToAnthropicEvents, handleTextDone, textPartOf, recovered]
    simp [closeCurrentBlock, speaking, idle.running, signatureDelta, read_blockStop]
  rw [ends]
  refine ⟨⟨idle.started, idle.running, rfl, fun b member => ?_, fun part ahead => ?_⟩, rfl, rfl,
    rfl⟩
  · simp only [speaking, List.mem_append, List.mem_singleton] at member
    rcases member with older | rfl
    · exact lt_trans (idle.older b older) (lt_add_one _)
    · exact lt_add_one _
  · simp only [speaking]
    rw [Function.update_of_ne (by rintro rfl; simp at ahead)]
    exact idle.fresh part (by omega)

/-- The end of a text that is empty. -/
theorem next_emptyDone (idle : Idle i j x) :
    x.next { type := .outputTextDone, outputIndex := i, contentIndex := j, text := "" } = x := by
  have unspoken : x.1.textByPart (i, j) = none := idle.fresh _ (by simp)
  have recovered : recoverText "" (i, j) x.1 = (x.1, []) := by
    simp [recoverText, unspoken]
  refine next_silent ?_
  simp [responsesEventToAnthropicEvents, handleTextDone, textPartOf, recovered, idle.close]

/-- The blocks of a content part. -/
def partBlocks (part : ResponsesContentPart) : List AnthropicContentBlock :=
  if part.type = .outputText ∧ part.text ≠ "" then [{ type := .text, text := part.text }] else []

end Texts

/-- A content part of a message. -/
theorem foldl_partEvents {i : ℕ} {x : Joint} {part : ResponsesContentPart × ℕ}
    {pieces : ℕ → List String} (idle : Idle i part.2 x)
    (cut : part.1.type = .outputText → String.join (pieces part.2) = part.1.text) :
    Idle i (part.2 + 1) ((partEvents i pieces part).foldl Joint.next x) ∧
      Adds x ((partEvents i pieces part).foldl Joint.next x) (partBlocks part.1) false
        (part.1.type = .outputText && part.1.text ≠ "") := by
  have silent (y : Joint) (evt : ResponsesStreamEvent)
      (ignored : evt.type = .contentPartAdded ∨ evt.type = .contentPartDone) : y.next evt = y := by
    refine next_silent ?_
    unfold responsesEventToAnthropicEvents
    rcases ignored with type | type <;> rw [type]
  unfold partEvents
  rw [List.foldl_append, List.foldl_append, List.foldl_cons, List.foldl_nil, List.foldl_cons,
    List.foldl_nil, silent _ _ (Or.inr rfl), silent _ _ (Or.inl rfl)]
  by_cases text : part.1.type = .outputText
  · rw [if_pos text, List.foldl_append, textEvents, foldl_text idle, cut text]
    by_cases empty : part.1.text = ""
    · rw [if_pos empty, empty, List.foldl_cons, List.foldl_nil, next_emptyDone idle]
      refine ⟨idle.later (by omega), ?_⟩
      simpa [partBlocks, empty] using Adds.refl x
    · rw [if_neg empty, List.foldl_cons, List.foldl_nil]
      obtain ⟨idle', read, call, spoke⟩ := next_textDone idle part.1.text
      refine ⟨idle', ?_, ?_, ?_, ?_⟩
      · rw [read, speaking, content_snoc, comparable_append]
        simp [partBlocks, text, empty, Builder.finish]
      · simp [call]
      · simp [spoke, text, empty]
      · rw [read]
        rfl
  · rw [if_neg text, List.foldl_nil]
    refine ⟨idle.later (by omega), ?_⟩
    simpa [partBlocks, text] using Adds.refl x

/-! ### Items -/

/-- The parts of a message, from part `j` on. -/
theorem foldl_parts {i : ℕ} {pieces : ℕ → List String} {parts : List ResponsesContentPart}
    {j : ℕ} {x : Joint} (idle : Idle i j x)
    (cut : ∀ part ∈ parts.zipIdx j, part.1.type = .outputText →
      String.join (pieces part.2) = part.1.text) :
    let x' := ((parts.zipIdx j).flatMap (partEvents i pieces)).foldl Joint.next x
    Idle i (j + parts.length) x' ∧ Adds x x' (parts.flatMap partBlocks) false
      (parts.any fun part => part.type = .outputText && part.text ≠ "") := by
  induction parts generalizing j x with
  | nil => exact ⟨by simpa using idle, Adds.refl x⟩
  | cons part rest ih =>
    intro x'
    have first := @foldl_partEvents i x (part, j) pieces idle
      (cut (part, j) (by simp [List.zipIdx_cons]))
    have later := @ih (j + 1) _ (by exact_mod_cast first.1) fun part member => cut part (by
      rw [List.zipIdx_cons]
      exact List.mem_cons_of_mem _ member)
    have split : x' = (((rest.zipIdx (j + 1)).flatMap (partEvents i pieces)).foldl Joint.next
        ((partEvents i pieces (part, j)).foldl Joint.next x)) := by
      simp [x', List.zipIdx_cons, List.foldl_append]
    rw [split]
    refine ⟨later.1.later (Or.inr ⟨rfl, le_of_eq (by push_cast [List.length_cons]; ring)⟩), ?_⟩
    have adds := first.2.trans later.2
    simpa [Bool.false_or] using adds

/-- The blocks that an item of the stream becomes. -/
def streamedBlocks (item : ResponsesOutput) : List AnthropicContentBlock :=
  if item.type = .webSearchCall ∧ item.status ≠ .completed then [] else itemBlocks item

/-- The item has text for the user. -/
def spokenItem (item : ResponsesOutput) : Bool :=
  item.type = .message && item.content.any fun part => part.type = .outputText && part.text ≠ ""

theorem messageBlocks (parts : List ResponsesContentPart) :
    ((parts.filter fun part => part.type = .outputText ∧ part.text ≠ "").map fun part =>
      ({ type := .text, text := part.text } : AnthropicContentBlock)) =
      parts.flatMap partBlocks := by
  induction parts with
  | nil => rfl
  | cons part rest ih =>
    rw [List.flatMap_cons, ← ih]
    by_cases text : part.type = .outputText ∧ part.text ≠ "" <;> simp [partBlocks, text]

variable {chunks : Chunks}

theorem foldl_messageEvents {item : ResponsesOutput} {i : ℕ} {x : Joint} (idle : Idle i 0 x)
    (message : item.type = .message) (cut : Pieces item (chunks i)) :
    let x' := (itemEvents chunks (item, i)).foldl Joint.next x
    Idle (i + 1) 0 x' ∧ Adds x x' (streamedBlocks item) (item.type = .functionCall)
      (spokenItem item) := by
  intro x'
  have added : x.next { type := .outputItemAdded, outputIndex := i
                        item := some (announced item) } = x := by
    refine next_silent ?_
    simp [responsesEventToAnthropicEvents, handleOutputItemAdded, announced, message]
  have parts := @foldl_parts i (chunks i) item.content 0 x (by exact_mod_cast idle)
    (by simpa [Pieces, message] using cut)
  have ended (y : Joint) (j : ℤ) (idle : Idle i j y) :
      y.next { type := .outputItemDone, outputIndex := i, item := some item } = y := by
    refine next_silent ?_
    simp [responsesEventToAnthropicEvents, handleOutputItemDone, message, idle.close]
  have split : x' = ((item.content.zipIdx.flatMap (partEvents i (chunks i))).foldl Joint.next x) := by
    simp only [x', itemEvents, contentEvents, message, List.cons_append, List.foldl_cons,
      List.foldl_append, List.foldl_nil, added]
    exact ended _ _ parts.1
  rw [split]
  refine ⟨parts.1.later (by omega), ?_⟩
  have blocks : streamedBlocks item = item.content.flatMap partBlocks := by
    rw [← messageBlocks]
    simp [streamedBlocks, itemBlocks, message]
  have adds := parts.2
  rw [← blocks] at adds
  simpa [message, spokenItem] using adds

/-! ### Reasoning -/

/-- A thinking block is open with this text. -/
def thinking (i : ℤ) (text : String) (x : Joint) : Joint :=
  ({ x.1 with
     outputIndexToBlockIdx :=
       Function.update x.1.outputIndexToBlockIdx i (some x.1.contentBlockIndex)
     contentBlockOpen := true
     currentBlockType := some .thinking
     pendingThinkingSignature := "" },
   { x.2 with
     blocks := x.2.blocks ++
       [{ index := x.1.contentBlockIndex, block := { type := .thinking, thinking := text } }] })

section Reasoning

variable {i j : ℤ} {x : Joint}

theorem next_reasoningAdded (idle : Idle i j x) {item : ResponsesOutput}
    (reasoning : item.type = .reasoning) :
    x.next { type := .outputItemAdded, outputIndex := i, item := some (announced item) } =
      thinking i "" x := by
  simp [Joint.next, responsesEventToAnthropicEvents, handleOutputItemAdded, announced, reasoning,
    idle.close, read_blockStart, thinking, trimSpace_empty]

theorem next_thought (idle : Idle i j x) (text piece : String) (summaryIndex : ℤ) :
    (thinking i text x).next
        { type := .reasoningSummaryTextDelta, outputIndex := i, summaryIndex := summaryIndex
          delta := piece } =
      thinking i (text ++ piece) x := by
  have read := @read_blockDelta x.2.blocks
    { index := x.1.contentBlockIndex, block := { type := .thinking, thinking := text } }
    x.2.stopReason { type := .thinking, thinking := piece } idle.older
  by_cases empty : piece = ""
  · subst empty
    simp [Joint.next, responsesEventToAnthropicEvents, handleReasoningDelta]
  · simp [Joint.next, responsesEventToAnthropicEvents, handleReasoningDelta, empty, thinking, read,
      Builder.add]

theorem foldl_thoughts (idle : Idle i j x) (text : String) (summaryIndex : ℤ)
    (pieces : List String) :
    (pieces.map fun piece => ({ type := .reasoningSummaryTextDelta, outputIndex := i
                                summaryIndex := summaryIndex, delta := piece } :
        ResponsesStreamEvent)).foldl Joint.next (thinking i text x) =
      thinking i (text ++ String.join pieces) x := by
  induction pieces generalizing text with
  | nil => simp
  | cons piece rest ih =>
    rw [List.map_cons, List.foldl_cons, next_thought idle, ih, String.join_cons,
      String.append_assoc]

/-- The summary of a reasoning item. -/
def summaryText (summary : List ResponsesSummary) : String :=
  String.join ((summary.filter fun s => s.type = .summaryText).map (·.text))

theorem foldl_summary {i : ℕ} {x : Joint} {j' : ℤ} (idle : Idle i j' x) {pieces : ℕ → List String}
    {summary : List ResponsesSummary} {j : ℕ}
    (cut : ∀ s ∈ summary.zipIdx j, s.1.type = .summaryText →
      String.join (pieces s.2) = s.1.text) (text : String) :
    ((summary.zipIdx j).flatMap (summaryEvents i pieces)).foldl Joint.next (thinking i text x) =
      thinking i (text ++ summaryText summary) x := by
  induction summary generalizing j text with
  | nil => simp [summaryText]
  | cons s rest ih =>
    have later := @ih (j + 1) fun s' member => cut s' (by
      rw [List.zipIdx_cons]
      exact List.mem_cons_of_mem _ member)
    have silent (y : Joint) (evt : ResponsesStreamEvent)
        (ignored : evt.type = .reasoningSummaryPartAdded ∨
          evt.type = .reasoningSummaryTextDone ∨ evt.type = .reasoningSummaryPartDone) :
        y.next evt = y := by
      refine next_silent ?_
      unfold responsesEventToAnthropicEvents
      rcases ignored with type | type | type <;> rw [type]
    rw [List.zipIdx_cons, List.flatMap_cons, List.foldl_append]
    by_cases shown : s.type = .summaryText
    · have whole := cut (s, j) (by simp [List.zipIdx_cons]) shown
      simp only [summaryEvents, if_pos shown, List.cons_append, List.foldl_cons,
        List.foldl_append, List.foldl_nil]
      rw [silent _ _ (Or.inr (Or.inr rfl)), silent _ _ (Or.inr (Or.inl rfl)),
        silent _ _ (Or.inl rfl), foldl_thoughts idle, whole, later]
      simp [summaryText, shown, String.append_assoc]
    · simp only [summaryEvents, if_neg shown, List.foldl_nil]
      rw [later]
      simp [summaryText, shown]

/-- The end of a reasoning item closes its block with the signature. -/
theorem next_reasoningDone (idle : Idle i j x) {item : ResponsesOutput}
    (reasoning : item.type = .reasoning)
    (trimmed : trimSpace item.encryptedContent = item.encryptedContent) (text : String) :
    let x' := (thinking i text x).next
      { type := .outputItemDone, outputIndex := i, item := some item }
    Idle i j x' ∧ x'.2 = { x.2 with
        blocks := x.2.blocks ++ [{ index := x.1.contentBlockIndex, block :=
          { type := .thinking, thinking := text, signature := item.encryptedContent } }] } ∧
      x'.1.hasToolCall = x.1.hasToolCall ∧ x'.1.textDelivered = x.1.textDelivered := by
  have read := @read_blockDelta x.2.blocks
    { index := x.1.contentBlockIndex, block := { type := .thinking, thinking := text } }
    x.2.stopReason { type := .signature, signature := item.encryptedContent } idle.older
  intro x'
  have ends : x' = ({ (thinking i text x).1 with
      contentBlockOpen := false
      contentBlockIndex := x.1.contentBlockIndex + 1
      currentToolName := ""
      currentToolArgs := ""
      currentToolHadDelta := false }, { x.2 with
        blocks := x.2.blocks ++ [{ index := x.1.contentBlockIndex, block :=
          { type := .thinking, thinking := text, signature := item.encryptedContent } }] }) := by
    by_cases signed : item.encryptedContent = ""
    · simp [x', Joint.next, responsesEventToAnthropicEvents, handleOutputItemDone, reasoning,
        signed, trimSpace_empty, closeCurrentBlock, thinking, signatureDelta, read_blockStop]
    · simp [x', Joint.next, responsesEventToAnthropicEvents, handleOutputItemDone, reasoning,
        trimmed, signed, closeCurrentBlock, thinking, signatureDelta, read_blockStop, read,
        Builder.add]
  rw [ends]
  refine ⟨⟨idle.started, idle.running, rfl, fun b member => ?_, idle.fresh⟩, rfl, rfl, rfl⟩
  rw [List.mem_append, List.mem_singleton] at member
  rcases member with older | rfl
  · exact lt_trans (idle.older b older) (lt_add_one _)
  · exact lt_add_one _

end Reasoning

theorem streamedBlocks_reasoning {item : ResponsesOutput} (reasoning : item.type = .reasoning) :
    streamedBlocks item =
      if summaryText item.summary ≠ "" ∨ trimSpace item.encryptedContent ≠ "" then
        [{ type := .thinking, thinking := summaryText item.summary
           signature := item.encryptedContent }]
      else [] := by
  rw [streamedBlocks, if_neg (by simp [reasoning]), itemBlocks, reasoning]
  rfl

theorem foldl_reasoningEvents {item : ResponsesOutput} {i : ℕ} {x : Joint} (idle : Idle i 0 x)
    (reasoning : item.type = .reasoning) (cut : Pieces item (chunks i))
    (trimmed : trimSpace item.encryptedContent = item.encryptedContent) :
    let x' := (itemEvents chunks (item, i)).foldl Joint.next x
    Idle (i + 1) 0 x' ∧ Adds x x' (streamedBlocks item) (item.type = .functionCall)
      (spokenItem item) := by
  intro x'
  obtain ⟨idle', read, call, spoke⟩ :=
    next_reasoningDone idle reasoning trimmed (summaryText item.summary)
  have summary := @foldl_summary i x 0 idle (chunks i) item.summary 0
    (by simpa [Pieces, reasoning] using cut) ""
  have split : x' = (thinking i (summaryText item.summary) x).next
      { type := .outputItemDone, outputIndex := i, item := some item } := by
    simp only [x', itemEvents, contentEvents, reasoning, List.cons_append, List.foldl_cons,
      List.foldl_append, List.foldl_nil, next_reasoningAdded idle reasoning]
    rw [summary, String.empty_append]
  rw [split]
  refine ⟨idle'.later (by omega), ?_, ?_, ?_, ?_⟩
  · rw [read, content_snoc, comparable_append]
    by_cases empty : summaryText item.summary = "" ∧ item.encryptedContent = ""
    · simp [streamedBlocks_reasoning reasoning, empty, trimSpace_empty, comparable,
        AnthropicContentBlock.empty, Builder.finish]
    · have shown : summaryText item.summary ≠ "" ∨ trimSpace item.encryptedContent ≠ "" := by
        rw [trimmed]
        tauto
      rw [streamedBlocks_reasoning reasoning, if_pos shown]
      simp [Builder.finish]
  · simp [call, reasoning]
  · simp [spoke, spokenItem, reasoning]
  · rw [read]

/-! ### Tool calls -/

/-- A tool block is open: the buffered arguments, whether a delta was sent, and the input so
far. -/
def calling (i : ℤ) (item : ResponsesOutput) (args : String) (sent : Bool) (json : String)
    (x : Joint) : Joint :=
  ({ x.1 with
     outputIndexToBlockIdx :=
       Function.update x.1.outputIndexToBlockIdx i (some x.1.contentBlockIndex)
     contentBlockOpen := true
     currentBlockType := some .toolUse
     currentToolName := item.name
     currentToolArgs := args
     currentToolHadDelta := sent
     hasToolCall := true },
   { x.2 with
     blocks := x.2.blocks ++
       [{ index := x.1.contentBlockIndex
          block := { type := .toolUse, id := fromResponsesCallID item.callID, name := item.name
                     input := "\x7b\x7d" }
          json := json }] })

section Calls

variable {i j : ℤ} {x : Joint} {item : ResponsesOutput}

theorem next_callAdded (idle : Idle i j x) (call : item.type = .functionCall) :
    x.next { type := .outputItemAdded, outputIndex := i, item := some (announced item) } =
      calling i item "" false "" x := by
  simp [Joint.next, responsesEventToAnthropicEvents, handleOutputItemAdded, announced, call,
    idle.close, read_blockStart, calling]

theorem read_argumentsDelta (idle : Idle i j x) (args json partialJSON : String) (sent : Bool) :
    (calling i item args sent json x).2.read
        (blockDelta x.1.contentBlockIndex { type := .inputJSON, partialJSON := partialJSON }) =
      (calling i item args sent (json ++ partialJSON) x).2 :=
  @read_blockDelta x.2.blocks
    { index := x.1.contentBlockIndex
      block := { type := .toolUse, id := fromResponsesCallID item.callID, name := item.name
                 input := "\x7b\x7d" }
      json := json } x.2.stopReason { type := .inputJSON, partialJSON := partialJSON } idle.older

/-- A piece of arguments that are not buffered. -/
theorem next_piece_of_call (idle : Idle i j x) (other : item.name ≠ "Read") {piece : String}
    (some : piece ≠ "") (args json : String) (sent : Bool) :
    (calling i item args sent json x).next
        { type := .functionCallArgumentsDelta, outputIndex := i, delta := piece } =
      calling i item args true (json ++ piece) x := by
  have read := @read_argumentsDelta i j x item idle args json piece sent
  simp only [calling] at read
  simp [Joint.next, responsesEventToAnthropicEvents, handleFuncArgsDelta, some, calling, other,
    argumentsDelta, read]

/-- A piece of buffered arguments, before and when they are JSON. -/
theorem next_piece_of_read (idle : Idle i j x) (reads : item.name = "Read") {piece : String}
    (some : piece ≠ "") (args : String) :
    (calling i item args false "" x).next
        { type := .functionCallArgumentsDelta, outputIndex := i, delta := piece } =
      if Json.valid (args ++ piece) then
        calling i item (args ++ piece) true
          (sanitizeAnthropicToolUseInput item.name (args ++ piece)) x
      else calling i item (args ++ piece) false "" x := by
  have read := @read_argumentsDelta i j x item idle args ""
    (sanitizeAnthropicToolUseInput item.name (args ++ piece)) false
  simp only [calling] at read
  by_cases whole : Json.valid (args ++ piece) = true <;>
    simp_all [Joint.next, responsesEventToAnthropicEvents, handleFuncArgsDelta, calling,
      argumentsDelta]

/-- A piece of buffered arguments after they were sent. -/
theorem next_piece_sent (reads : item.name = "Read") {piece : String} (some : piece ≠ "")
    (args json : String) :
    (calling i item args true json x).next
        { type := .functionCallArgumentsDelta, outputIndex := i, delta := piece } =
      calling i item (args ++ piece) true json x := by
  simp [Joint.next, responsesEventToAnthropicEvents, handleFuncArgsDelta, calling, reads, some]

theorem next_empty_piece (y : Joint) (outputIndex : ℤ) :
    y.next { type := .functionCallArgumentsDelta, outputIndex := outputIndex, delta := "" } = y :=
  next_silent (by simp [responsesEventToAnthropicEvents, handleFuncArgsDelta])

theorem foldl_call (idle : Idle i j x) (other : item.name ≠ "Read") (json : String) (sent : Bool)
    (pieces : List String) :
    (pieces.map fun piece => ({ type := .functionCallArgumentsDelta, outputIndex := i
                                delta := piece } : ResponsesStreamEvent)).foldl Joint.next
        (calling i item "" sent json x) =
      calling i item "" (sent || String.join pieces ≠ "") (json ++ String.join pieces) x := by
  induction pieces generalizing sent json with
  | nil => simp
  | cons piece rest ih =>
    rw [List.map_cons, List.foldl_cons, String.join_cons]
    by_cases empty : piece = ""
    · rw [empty, next_empty_piece, ih, String.empty_append]
    · rw [next_piece_of_call idle other empty, ih, String.append_assoc]
      simp [empty]

theorem foldl_sent (reads : item.name = "Read") (args json : String) (pieces : List String) :
    (pieces.map fun piece => ({ type := .functionCallArgumentsDelta, outputIndex := i
                                delta := piece } : ResponsesStreamEvent)).foldl Joint.next
        (calling i item args true json x) =
      calling i item (args ++ String.join pieces) true json x := by
  induction pieces generalizing args with
  | nil => simp
  | cons piece rest ih =>
    rw [List.map_cons, List.foldl_cons, String.join_cons]
    by_cases empty : piece = ""
    · rw [empty, next_empty_piece, ih, String.empty_append]
    · rw [next_piece_sent reads empty, ih, String.append_assoc]

/-- The buffered arguments are sent when they first are JSON. -/
theorem foldl_read (idle : Idle i j x) (reads : item.name = "Read") (args : String)
    (pieces : List String) :
    ∃ (sent : Bool) (json : String),
      (pieces.map fun piece => ({ type := .functionCallArgumentsDelta, outputIndex := i
                                  delta := piece } : ResponsesStreamEvent)).foldl Joint.next
          (calling i item args false "" x) =
        calling i item (args ++ String.join pieces) sent json x ∧
      ((sent = false ∧ (String.join pieces = "" ∨
          Json.valid (args ++ String.join pieces) = false)) ∨
        (sent = true ∧ ∃ whole rest, args ++ String.join pieces = whole ++ rest ∧
          Json.valid whole = true ∧ json = sanitizeAnthropicToolUseInput item.name whole)) := by
  induction pieces generalizing args with
  | nil => exact ⟨false, "", by simp, Or.inl ⟨rfl, Or.inl rfl⟩⟩
  | cons piece rest ih =>
    rw [List.map_cons, List.foldl_cons, String.join_cons]
    by_cases empty : piece = ""
    · rw [empty, next_empty_piece, String.empty_append]
      exact ih args
    · rw [next_piece_of_read idle reads empty, ← String.append_assoc]
      by_cases whole : Json.valid (args ++ piece) = true
      · rw [if_pos whole, foldl_sent reads]
        exact ⟨true, _, rfl, Or.inr ⟨rfl, args ++ piece, String.join rest, rfl, whole, rfl⟩⟩
      · rw [if_neg whole]
        obtain ⟨sent, json, same, unsent | sentWhole⟩ := ih (args ++ piece)
        · refine ⟨sent, json, same, Or.inl ⟨unsent.1, Or.inr ?_⟩⟩
          rcases unsent.2 with nothing | invalid
          · rw [nothing, String.append_empty]
            simpa using whole
          · exact invalid
        · exact ⟨sent, json, same, Or.inr sentWhole⟩

theorem valid_empty : Json.valid "" = false := by decide

/-- After all its pieces, a call's input is that of a valid prefix of the arguments. -/
theorem foldl_argumentEvents {i : ℕ} (idle : Idle i j x) {pieces : List String}
    (cut : String.join pieces = item.arguments) (whole : Json.valid item.arguments = true) :
    ∃ (args start rest : String), item.arguments = start ++ rest ∧ Json.valid start = true ∧
      (argumentEvents i pieces).foldl Joint.next (calling i item "" false "" x) =
        calling i item args true (sanitizeAnthropicToolUseInput item.name start) x := by
  have present : item.arguments ≠ "" := by
    intro empty
    rw [empty, valid_empty] at whole
    cases whole
  by_cases reads : item.name = "Read"
  · obtain ⟨sent, json, same, unsent | ⟨isSent, start, rest, split, valid, isJson⟩⟩ :=
      @foldl_read (i : ℤ) j x item idle reads "" pieces
    · rw [cut, String.empty_append, whole] at unsent
      rcases unsent.2 with empty | invalid
      · exact absurd empty present
      · cases invalid
    · rw [cut, String.empty_append] at split
      rw [isSent, isJson] at same
      exact ⟨_, start, rest, split, valid, same⟩
  · have same := @foldl_call (i : ℤ) j x item idle reads "" false pieces
    rw [cut, String.empty_append] at same
    refine ⟨"", item.arguments, "", by simp, whole, same.trans ?_⟩
    simp [present, sanitizeAnthropicToolUseInput, reads]

/-- The end of the arguments closes the block. -/
theorem next_argumentsDone (idle : Idle i j x) (args json arguments : String) :
    let x' := (calling i item args true json x).next
      { type := .functionCallArgumentsDone, outputIndex := i, arguments := arguments }
    Idle i j x' ∧ x'.2 = (calling i item args true json x).2 ∧ x'.1.hasToolCall = true ∧
      x'.1.textDelivered = x.1.textDelivered := by
  intro x'
  have ends : x' = ({ (calling i item args true json x).1 with
      contentBlockOpen := false
      contentBlockIndex := x.1.contentBlockIndex + 1
      currentToolName := ""
      currentToolArgs := ""
      currentToolHadDelta := false }, (calling i item args true json x).2) := by
    simp [x', Joint.next, responsesEventToAnthropicEvents, handleFuncArgsDone, calling,
      closeCurrentBlock, signatureDelta, read_blockStop]
  rw [ends]
  refine ⟨⟨idle.started, idle.running, rfl, fun b member => ?_, idle.fresh⟩, rfl, rfl, rfl⟩
  simp only [calling, List.mem_append, List.mem_singleton] at member
  rcases member with older | rfl
  · exact lt_trans (idle.older b older) (lt_add_one _)
  · exact lt_add_one _

end Calls

/-- Sanitized arguments are JSON of the same value, whether or not white space follows. -/
theorem canonical_sanitized {name start rest : String}
    (object : Json.isObject (start ++ rest) = true) (whole : Json.valid start = true) :
    Json.canonical (sanitizeAnthropicToolUseInput name (start ++ rest)) =
      Json.canonical (sanitizeAnthropicToolUseInput name start) := by
  have present : start ≠ "" := by
    rintro rfl
    rw [valid_empty] at whole
    cases whole
  have same := Json.canonical_prefix object whole
  unfold sanitizeAnthropicToolUseInput
  by_cases other : name ≠ "Read"
  · rw [if_pos (Or.inl other), if_pos (Or.inl other)]
    exact same
  · rw [if_neg (by simp [other, present]), if_neg (by simp [other, present]),
      Json.unmarshalMap_prefix object whole]
    split
    · exact same
    · split
      · rfl
      · exact same

theorem sanitized_ne_empty {name raw : String} (present : raw ≠ "") :
    sanitizeAnthropicToolUseInput name raw ≠ "" := by
  unfold sanitizeAnthropicToolUseInput
  split
  · exact present
  · split
    · exact present
    · split
      · intro empty
        have shorter := congrArg String.length empty
        simp [Json.marshalMap, Json.object] at shorter
      · exact present

theorem foldl_callEvents {item : ResponsesOutput} {i : ℕ} {x : Joint} (idle : Idle i 0 x)
    (call : item.type = .functionCall) (cut : Pieces item (chunks i))
    (object : Json.isObject item.arguments = true) :
    let x' := (itemEvents chunks (item, i)).foldl Joint.next x
    Idle (i + 1) 0 x' ∧ Adds x x' (streamedBlocks item) (item.type = .functionCall)
      (spokenItem item) := by
  intro x'
  obtain ⟨args, start, rest, split, whole, pieces⟩ := @foldl_argumentEvents 0 x item i idle
    (chunks i 0) (by simpa [Pieces, call] using cut) (Json.isObject_valid object)
  obtain ⟨idle', read, called, spoke⟩ := @next_argumentsDone i 0 x item idle args
    (sanitizeAnthropicToolUseInput item.name start) item.arguments
  have ended (y : Joint) (j : ℤ) (idle : Idle i j y) :
      y.next { type := .outputItemDone, outputIndex := i, item := some item } = y := by
    refine next_silent ?_
    simp [responsesEventToAnthropicEvents, handleOutputItemDone, call, idle.close]
  have split' : x' = (calling i item args true (sanitizeAnthropicToolUseInput item.name start)
      x).next { type := .functionCallArgumentsDone, outputIndex := i
                arguments := item.arguments } := by
    simp only [x', itemEvents, contentEvents, call, List.cons_append, List.foldl_cons,
      List.foldl_append, List.foldl_nil, next_callAdded idle call, pieces]
    exact ended _ _ idle'
  rw [split']
  refine ⟨idle'.later (by omega), ?_, ?_, ?_, ?_⟩
  · have present : start ≠ "" := by
      rintro rfl
      rw [valid_empty] at whole
      cases whole
    have sanitized := @sanitized_ne_empty item.name start present
    rw [read, calling, content_snoc, comparable_append]
    rw [split] at object
    simp [streamedBlocks, itemBlocks, call, comparable, AnthropicContentBlock.empty,
      Builder.finish, sanitized, split, canonical_sanitized object whole]
  · simp [called, call]
  · simp [spoke, spokenItem, call]
  · rw [read]
    rfl

/-! ### Web searches -/

theorem foldl_searchEvents {item : ResponsesOutput} {i : ℕ} {x : Joint} (idle : Idle i 0 x)
    (search : item.type = .webSearchCall) :
    let x' := (itemEvents chunks (item, i)).foldl Joint.next x
    Idle (i + 1) 0 x' ∧ Adds x x' (streamedBlocks item) (item.type = .functionCall)
      (spokenItem item) := by
  intro x'
  have added : x.next { type := .outputItemAdded, outputIndex := i
                        item := some (announced item) } = x := by
    refine next_silent ?_
    simp [responsesEventToAnthropicEvents, handleOutputItemAdded, announced, search]
  have split : x' = x.next { type := .outputItemDone, outputIndex := i, item := some item } := by
    simp only [x', itemEvents, contentEvents, search, List.cons_append, List.foldl_cons,
      List.nil_append, List.foldl_nil, added]
  rw [split]
  by_cases finished : item.status = .completed
  · have ends : x.next { type := .outputItemDone, outputIndex := i, item := some item } =
        ({ x.1 with contentBlockIndex := x.1.contentBlockIndex + 1 + 1 },
         { x.2 with
           blocks := x.2.blocks ++ [{ index := x.1.contentBlockIndex
                                      block := (webSearchBlocks item).1 }] ++
             [{ index := x.1.contentBlockIndex + 1, block := (webSearchBlocks item).2 }] }) := by
      simp [Joint.next, responsesEventToAnthropicEvents, handleOutputItemDone, search, finished,
        handleWebSearchDone, idle.close, read_blockStart, read_blockStop]
    rw [ends]
    refine ⟨⟨idle.started, idle.running, idle.closed, fun b member => ?_, fun part ahead => ?_⟩,
      ?_, ?_, ?_, rfl⟩
    · simp only [List.mem_append, List.mem_singleton] at member ⊢
      rcases member with (older | rfl) | rfl
      · have before := idle.older b older
        omega
      · show x.1.contentBlockIndex < x.1.contentBlockIndex + 1 + 1
        omega
      · exact lt_add_one _
    · exact idle.fresh part (by omega)
    · simp [Assembly.content, comparable, streamedBlocks, itemBlocks, search, finished,
        Builder.finish, webSearchBlocks, AnthropicContentBlock.empty]
    · simp [search]
    · simp [spokenItem, search]
  · have silent : x.next { type := .outputItemDone, outputIndex := i, item := some item } = x := by
      refine next_silent ?_
      simp [responsesEventToAnthropicEvents, handleOutputItemDone, search, finished, idle.close]
    rw [silent]
    refine ⟨idle.later (by omega), ?_⟩
    simpa [streamedBlocks, search, finished, spokenItem] using Adds.refl x

/-! ### Whole responses -/

/-- An item of one of the four types; arguments are JSON objects, and encrypted reasoning has no
white space around it. -/
structure Convertible (item : ResponsesOutput) : Prop where
  known : item.type = .reasoning ∨ item.type = .message ∨ item.type = .functionCall ∨
    item.type = .webSearchCall
  object : item.type = .functionCall → Json.isObject item.arguments = true
  trimmed : item.type = .reasoning →
    trimSpace item.encryptedContent = item.encryptedContent

/-- One item of the canonical stream. -/
theorem foldl_itemEvents {item : ResponsesOutput} {i : ℕ} {x : Joint} (idle : Idle i 0 x)
    (convertible : Convertible item) (cut : Pieces item (chunks i)) :
    let x' := (itemEvents chunks (item, i)).foldl Joint.next x
    Idle (i + 1) 0 x' ∧ Adds x x' (streamedBlocks item) (item.type = .functionCall)
      (spokenItem item) := by
  rcases convertible.known with reasoning | message | call | search
  · exact foldl_reasoningEvents idle reasoning cut (convertible.trimmed reasoning)
  · exact foldl_messageEvents idle message cut
  · exact foldl_callEvents idle call cut (convertible.object call)
  · exact foldl_searchEvents idle search

/-- The items from item `i` on. -/
theorem foldl_items {items : List ResponsesOutput} {i : ℕ} {x : Joint} (idle : Idle i 0 x)
    (convertible : ∀ item ∈ items, Convertible item)
    (cut : ∀ item ∈ items.zipIdx i, Pieces item.1 (chunks item.2)) :
    let x' := ((items.zipIdx i).flatMap (itemEvents chunks)).foldl Joint.next x
    Idle (i + items.length) 0 x' ∧ Adds x x' (items.flatMap streamedBlocks)
      (items.any fun item => item.type = .functionCall) (items.any spokenItem) := by
  induction items generalizing i x with
  | nil => exact ⟨by simpa using idle, Adds.refl x⟩
  | cons item rest ih =>
    intro x'
    have first := @foldl_itemEvents chunks item i x idle (convertible item (by simp))
      (cut (item, i) (by simp [List.zipIdx_cons]))
    have later := @ih (i + 1) _ (by exact_mod_cast first.1)
      (fun other member => convertible other (List.mem_cons_of_mem _ member))
      (fun other member => cut other (by
        rw [List.zipIdx_cons]
        exact List.mem_cons_of_mem _ member))
    have split : x' = (((rest.zipIdx (i + 1)).flatMap (itemEvents chunks)).foldl Joint.next
        ((itemEvents chunks (item, i)).foldl Joint.next x)) := by
      simp [x', List.zipIdx_cons, List.foldl_append]
    rw [split]
    refine ⟨later.1.later (Or.inr ⟨?_, le_rfl⟩), first.2.trans later.2⟩
    push_cast [List.length_cons]
    ring

theorem emitTexts_silent {s : ResponsesEventToAnthropicState}
    {texts : List (ResponsesTextPart × String)} (empty : ∀ text ∈ texts, text.2 = "") :
    emitTexts texts s = (s, []) := by
  induction texts with
  | nil => rfl
  | cons text rest ih =>
    have first : emitText text.2 text.1 s = (s, []) := by
      rw [empty text (by simp)]
      rfl
    have later := ih fun other member => empty other (List.mem_cons_of_mem _ member)
    simp [emitTexts, first, later]

/-- Without any text in the response there is none to recover at its end. -/
theorem recoverTerminalText_silent {s : ResponsesEventToAnthropicState} {resp : ResponsesResponse}
    (terminal : ResponsesEventType) (spoke : s.textDelivered = resp.output.any spokenItem) :
    recoverTerminalText { type := terminal, response := some resp } s = (s, []) := by
  by_cases delivered : s.textDelivered = true
  · simp [recoverTerminalText, delivered]
  · have silent : ∀ item ∈ resp.output, spokenItem item = false := by
      have none : resp.output.any spokenItem = false := by
        rw [← spoke]
        simpa using delivered
      simpa [List.any_eq_false] using none
    have empty : ∀ text ∈ terminalTexts resp, text.2 = "" := by
      intro text member
      simp only [terminalTexts, List.mem_flatMap] at member
      obtain ⟨⟨item, outputIndex⟩, isItem, member⟩ := member
      split at member
      · cases member
      · rename_i message
        simp only [List.mem_filterMap] at member
        obtain ⟨⟨part, contentIndex⟩, isPart, same⟩ := member
        split at same
        · cases same
        · rename_i shown
          cases same
          have unspoken := silent item (List.fst_mem_of_mem_zipIdx isItem)
          by_contra spoken
          have speaks : spokenItem item = true := by
            simp only [spokenItem, Bool.and_eq_true, decide_eq_true_eq, List.any_eq_true]
            exact ⟨not_not.mp message, part, List.fst_mem_of_mem_zipIdx isPart,
              not_not.mp shown, spoken⟩
          rw [unspoken] at speaks
          cases speaks
    simp [recoverTerminalText, delivered, emitTexts_silent empty]

/-- The message that the converted stream of a response assembles to. -/
def streamedMessage (model : String) (resp : ResponsesResponse) (chunks : Chunks)
    (terminal : ResponsesEventType) : Assembly :=
  assemble (run responsesEventToAnthropicEvents { model := model }
    (canonicalStream resp chunks terminal)).2

section Responses

variable {model : String} {resp : ResponsesResponse} {chunks : Chunks}
  {terminal : ResponsesEventType}

theorem next_created (model : String) (resp : ResponsesResponse) :
    let x := Joint.next ({ model := model }, {}) { type := .created
                                                   response := some { id := resp.id
                                                                      model := resp.model
                                                                      status := .inProgress } }
    Idle 0 0 x ∧ x.2 = {} ∧ x.1.hasToolCall = false ∧ x.1.textDelivered = false :=
  ⟨⟨rfl, rfl, rfl, fun _ member => absurd member (by simp [Joint.next,
    responsesEventToAnthropicEvents, handleCreated, Assembly.read]), fun _ _ => rfl⟩, rfl, rfl, rfl⟩

/-- The terminal event gives the stop reason and nothing else. -/
theorem next_terminal {i : ℤ} {x : Joint} (idle : Idle i 0 x)
    (ends : terminal.terminal = true) (spoke : x.1.textDelivered = resp.output.any spokenItem) :
    (x.next { type := terminal, response := some resp }).2 =
      { x.2 with
        stopReason := some
          (terminalStopReason { type := terminal, response := some resp } x.1.hasToolCall) } := by
  have completed : responsesEventToAnthropicEvents x.1
        { type := terminal, response := some resp } =
      handleCompleted { type := terminal, response := some resp } x.1 := by
    cases terminal <;> first | rfl | cases ends
  simp [Joint.next, completed, handleCompleted, idle.running, idle.close,
    recoverTerminalText_silent terminal spoke, messageEnd, Assembly.read]

/-- The streamed message: the blocks of its items, and the stop reason. -/
theorem streamedMessage_eq (convertible : ∀ item ∈ resp.output, Convertible item)
    (cut : ∀ item ∈ resp.output.zipIdx, Pieces item.1 (chunks item.2))
    (ends : terminal.terminal = true) :
    comparable (streamedMessage model resp chunks terminal).content =
        comparable (resp.output.flatMap streamedBlocks) ∧
      (streamedMessage model resp chunks terminal).stopReason =
        some (terminalStopReason { type := terminal, response := some resp }
          (resp.output.any fun item => item.type = .functionCall)) := by
  obtain ⟨idle, nothing, noCall, unspoken⟩ := next_created model resp
  obtain ⟨idle', adds⟩ := foldl_items (i := 0) idle convertible cut
  have spoke := adds.spoke
  rw [unspoken, Bool.false_or] at spoke
  have call := adds.call
  rw [noCall, Bool.false_or] at call
  have last := @next_terminal resp terminal _ _ idle' ends spoke
  have whole : streamedMessage model resp chunks terminal =
      ((canonicalStream resp chunks terminal).foldl Joint.next ({ model := model }, {})).2 := by
    rw [foldl_next]
    rfl
  rw [whole, canonicalStream, List.foldl_append, List.foldl_cons, List.foldl_cons, List.foldl_nil,
    last, call]
  refine ⟨?_, rfl⟩
  have blocks := adds.blocks
  rw [nothing] at blocks
  exact blocks

/-- The blocks of the finished message, without the text block that stands for none. -/
theorem comparable_content :
    comparable (responsesToAnthropic resp model).content =
      comparable (resp.output.flatMap itemBlocks) := by
  unfold responsesToAnthropic
  dsimp only
  split
  · rename_i none
    rw [none]
    rfl
  · rfl

theorem any_toolUse (items : List ResponsesOutput) :
    ((items.flatMap itemBlocks).any fun block => block.type = .toolUse) =
      items.any fun item => item.type = .functionCall := by
  induction items with
  | nil => rfl
  | cons item rest ih =>
    rw [List.flatMap_cons, List.any_append, List.any_cons, ih]
    congr 1
    unfold itemBlocks
    cases type : item.type with
    | reasoning =>
      dsimp only
      split <;> simp
    | _ => simp [webSearchBlocks]

/-- Both messages stop for the same reason. -/
theorem stopReason_eq :
    (responsesToAnthropic resp model).stopReason =
      some (terminalStopReason { type := terminal, response := some resp }
        (resp.output.any fun item => item.type = .functionCall)) := by
  have calls := any_toolUse resp.output
  unfold responsesToAnthropic terminalStopReason responsesStatusToAnthropicStopReason
  dsimp only
  cases resp.status with
  | completed =>
    dsimp only
    split
    · rename_i none
      rw [none] at calls
      rw [← calls]
      rfl
    · rw [calls]
  | _ => rfl

theorem streamedBlocks_eq {item : ResponsesOutput}
    (finished : item.type = .webSearchCall → item.status = .completed) :
    streamedBlocks item = itemBlocks item :=
  if_neg fun search => search.2 (finished search.1)

/-- The web searches that a message reports. -/
def searches (blocks : List AnthropicContentBlock) : ℕ :=
  blocks.countP fun block => block.type = .serverToolUse

theorem searches_comparable (blocks : List AnthropicContentBlock) :
    searches (comparable blocks) = searches blocks := by
  unfold searches comparable
  rw [List.countP_map, List.countP_filter]
  refine List.countP_congr fun block _ => ?_
  simp only [Function.comp_apply, Bool.and_eq_true, decide_eq_true_eq, Bool.not_eq_true']
  constructor
  · exact And.left
  · intro search
    exact ⟨search, by simp [AnthropicContentBlock.empty, search]⟩

theorem searches_streamed_le (item : ResponsesOutput) :
    searches (streamedBlocks item) ≤ searches (itemBlocks item) := by
  unfold streamedBlocks
  split
  · exact Nat.zero_le _
  · exact le_rfl

/-- For every response and every way of cutting its texts, the streamed message agrees with the
finished one exactly when every web search of the response is completed. -/
theorem streams_agree_iff (convertible : ∀ item ∈ resp.output, Convertible item)
    (cut : ∀ item ∈ resp.output.zipIdx, Pieces item.1 (chunks item.2))
    (ends : terminal.terminal = true) (original : String) :
    Agrees (streamedMessage model resp chunks terminal) (responsesToAnthropic resp original) ↔
      ∀ item ∈ resp.output, item.type = .webSearchCall → item.status = .completed := by
  obtain ⟨content, stop⟩ := @streamedMessage_eq model resp chunks terminal convertible cut ends
  unfold Agrees
  rw [content, stop, comparable_content, @stopReason_eq original resp terminal]
  constructor
  · rintro ⟨same, _⟩ item member search
    by_contra unfinished
    have equal : searches (resp.output.flatMap streamedBlocks) =
        searches (resp.output.flatMap itemBlocks) := by
      rw [← searches_comparable, same, searches_comparable]
    have fewer : (resp.output.map fun item => searches (streamedBlocks item)).sum <
        (resp.output.map fun item => searches (itemBlocks item)).sum := by
      refine List.sum_lt_sum _ _ (fun other _ => searches_streamed_le other) ⟨item, member, ?_⟩
      simp [streamedBlocks, search, unfinished, itemBlocks, searches, webSearchBlocks]
    simp only [searches, List.countP_flatMap] at equal fewer
    exact absurd equal (ne_of_lt fewer)
  · intro finished
    refine ⟨?_, rfl⟩
    congr 1
    exact List.flatMap_congr fun item member => streamedBlocks_eq (finished item member)

end Responses

namespace Sample

/-- A response with a search, reasoning, an answer and a call of `Read`. -/
def response (search : ResponsesStatus) : ResponsesResponse :=
  { id := "resp_1", model := "m", status := .completed
    output := [
      { type := .webSearchCall, id := "ws_1", status := search, action := some { query := "q" } },
      { type := .reasoning, id := "rs_1", encryptedContent := "sig"
        summary := [{ type := .summaryText, text := "think" }] },
      { type := .message, id := "msg_1", content := [{ type := .outputText, text := "answer" }] },
      { type := .functionCall, id := "fc_1", callID := "call_1", name := "Read"
        arguments := "\x7b\"pages\": \"\", \"n\": 1\x7d " }] }

/-- Its texts, in two pieces each. -/
def pieces : Chunks
  | 1, _ => ["th", "ink"]
  | 2, _ => ["ans", "wer"]
  | 3, _ => ["\x7b\"pages\": \"\", \"n\": ", "1\x7d", " "]
  | _, _ => []

theorem response_convertible (search : ResponsesStatus) :
    ∀ item ∈ (response search).output, Convertible item := by
  intro item member
  simp only [response, List.mem_cons, List.not_mem_nil, or_false] at member
  rcases member with rfl | rfl | rfl | rfl
  · exact ⟨by simp, by simp, by simp⟩
  · exact ⟨by simp, by simp, fun _ => by decide +kernel⟩
  · exact ⟨by simp, by simp, by simp⟩
  · exact ⟨by simp, fun _ => by decide +kernel, by simp⟩

theorem pieces_cut (search : ResponsesStatus) :
    ∀ item ∈ (response search).output.zipIdx, Pieces item.1 (pieces item.2) := by
  intro item member
  simp only [response, List.zipIdx_cons, List.zipIdx_nil, List.mem_cons, List.not_mem_nil,
    or_false] at member
  rcases member with rfl | rfl | rfl | rfl
  · trivial
  · simp [Pieces, pieces]
  · simp [Pieces, pieces]
  · simp [Pieces, pieces]

end Sample

theorem streams_agree_sample :
    Agrees (streamedMessage "" (Sample.response .completed) Sample.pieces .completed)
        (responsesToAnthropic (Sample.response .completed) "m") ↔
      ∀ item ∈ (Sample.response .completed).output,
        item.type = .webSearchCall → item.status = .completed :=
  streams_agree_iff (Sample.response_convertible .completed) (Sample.pieces_cut .completed) rfl "m"

/-- A web search that failed is streamed as nothing, and reported in the finished message. -/
theorem failed_search_disagrees :
    (∀ item ∈ (Sample.response .failed).output, Convertible item) ∧
      (∀ item ∈ (Sample.response .failed).output.zipIdx, Pieces item.1 (Sample.pieces item.2)) ∧
      ¬Agrees (streamedMessage "" (Sample.response .failed) Sample.pieces .completed)
        (responsesToAnthropic (Sample.response .failed) "m") := by
  refine ⟨Sample.response_convertible .failed, Sample.pieces_cut .failed, ?_⟩
  decide +kernel

end Sub2api.ApiCompat
