import Sub2api.Antigravity.Separate
import Sub2api.Antigravity.WellFormed

/-!
# The two converters agree

On separate parts they agree (`parts_sim`). The first part that is not leaves them `Apart`: at one
place the blocks differ, and they stay so whatever comes. `agrees_iff` puts the two together, for
every way of distributing a response over chunks.
-/

namespace Sub2api.Antigravity

open Transducer

section Simulation

open NonStreamingProcessor

variable {v : View} {q : NonStreamingProcessor} {last : Last} {ids : Ids}

/-! ### After a part that is not -/

/-- Blocks that only grow in number and in text. -/
def Grows (items items' : List ClaudeContentItem) : Prop :=
  ∀ (n : ℕ) x, (comparable items)[n]? = some x → ∃ x', (comparable items')[n]? = some x' ∧
    x'.type = x.type ∧ x.text.length ≤ x'.text.length ∧ x'.input = x.input

theorem getElem?_of_prefix {α : Type} {first whole : List α} (begins : first <+: whole) {n : ℕ}
    {x : α} (at_ : first[n]? = some x) : whole[n]? = some x := by
  obtain ⟨rest, rfl⟩ := begins
  obtain ⟨bound, _⟩ := List.getElem?_eq_some_iff.mp at_
  rw [List.getElem?_append_left bound]
  exact at_

theorem Grows.refl (items : List ClaudeContentItem) : Grows items items :=
  fun _ x at_ => ⟨x, at_, rfl, Nat.le_refl _, rfl⟩

theorem Grows.trans {first second third : List ClaudeContentItem} (one : Grows first second)
    (two : Grows second third) : Grows first third := by
  intro n x at_
  obtain ⟨x', at', type', length', input'⟩ := one n x at_
  obtain ⟨x'', at'', type'', length'', input''⟩ := two n x' at'
  exact ⟨x'', at'', type''.trans type', length'.trans length'', input''.trans input'⟩

theorem Grows.append (items more : List ClaudeContentItem) : Grows items (items ++ more) := by
  intro n x at_
  refine ⟨x, ?_, rfl, Nat.le_refl _, rfl⟩
  rw [comparable_append]
  exact getElem?_of_prefix (List.prefix_append _ _) at_

/-- The last block grows. -/
theorem Grows.grown (items : List ClaudeContentItem) {x x' : ClaudeContentItem}
    (full : x.empty = false → x'.empty = false) (type : x'.type = x.type)
    (length : x.text.length ≤ x'.text.length) (input : x'.input = x.input) :
    Grows (items ++ [x]) (items ++ [x']) := by
  cases empty : x.empty with
  | true =>
    have same : comparable (items ++ [x]) = comparable items := by
      rw [comparable_append]
      simp [comparable, empty]
    intro n y at_
    rw [same] at at_
    exact Grows.append items [x'] n y at_
  | false =>
    intro n y at_
    rw [comparable_append] at at_ ⊢
    have one : comparable [x] = [x] := by simp [comparable, empty]
    have one' : comparable [x'] = [x'] := by simp [comparable, full empty]
    rw [one] at at_
    rw [one']
    by_cases early : n < (comparable items).length
    · rw [List.getElem?_append_left early] at at_ ⊢
      exact ⟨y, at_, rfl, Nat.le_refl _, rfl⟩
    · rw [List.getElem?_append_right (Nat.le_of_not_lt early)] at at_ ⊢
      cases place : n - (comparable items).length with
      | zero =>
        rw [place] at at_
        cases at_
        exact ⟨x', rfl, type, length, input⟩
      | succ k =>
        rw [place] at at_
        cases at_

theorem textItem_full {text : String} (nonempty : text ≠ "") : (textItem text).empty = false := by
  simp [ClaudeContentItem.empty, textItem, nonempty]

theorem thinkingItem_full {thinking signature : String}
    (nonempty : thinking ≠ "" ∨ signature ≠ "") :
    (thinkingItem thinking signature).empty = false := by
  rcases nonempty with thought | signed
  · simp [ClaudeContentItem.empty, thinkingItem, thought]
  · simp [ClaudeContentItem.empty, thinkingItem, signed]

theorem text_grows (v : View) (text : String) : Grows v.content (v.text text).content := by
  unfold View.text
  cases open_ : v.opened with
  | text said =>
    unfold View.content
    rw [open_]
    apply Grows.grown v.closed
    · intro full
      have nonempty : said ≠ "" := by
        rintro rfl
        cases full
      apply textItem_full
      intro empty
      exact nonempty (String.append_eq_empty_iff.mp empty).1
    · rfl
    · change said.length ≤ (said ++ text).length
      rw [String.length_append]
      omega
    · rfl
  | none =>
    unfold View.content
    dsimp only
    rw [StreamingProcessor.push_nil]
    exact Grows.append v.content _
  | thinking thinking signature =>
    unfold View.content
    dsimp only
    rw [StreamingProcessor.push_nil]
    exact Grows.append v.content _

theorem thought_grows (v : View) (text signature : String) :
    Grows v.content (v.thought text signature).content := by
  unfold View.thought
  cases open_ : v.opened with
  | thinking thinking signed =>
    unfold View.content
    rw [open_]
    apply Grows.grown v.closed
    · intro full
      apply thinkingItem_full
      by_cases silent : thinking = ""
      · right
        split
        · assumption
        · rintro rfl
          subst silent
          cases full
      · left
        intro empty
        exact silent (String.append_eq_empty_iff.mp empty).1
    · rfl
    · exact Nat.le_refl _
    · rfl
  | none =>
    unfold View.content
    dsimp only
    rw [StreamingProcessor.push_nil]
    exact Grows.append v.content _
  | text said =>
    unfold View.content
    dsimp only
    rw [StreamingProcessor.push_nil]
    exact Grows.append v.content _

theorem push_grows (v : View) (items : List ClaudeContentItem) :
    Grows v.content (v.push items).content := by
  have pushed : (v.push items).content = v.content ++ items := List.append_nil _
  rw [pushed]
  exact Grows.append _ _

theorem said_grows (v : View) (text signature : String) :
    Grows v.content (v.said text signature).content := by
  unfold View.said
  split
  · exact push_grows v _
  · exact text_grows v text

/-- At one place the blocks differ, whatever the stream's one may still become. -/
def Apart (v : View) (q : NonStreamingProcessor) : Prop :=
  ∃ (n : ℕ) (x y : ClaudeContentItem), (comparable v.content)[n]? = some x ∧
    (comparable q.contentBlocks)[n]? = some y ∧
    (x.type ≠ y.type ∨ y.text.length < x.text.length ∨ x.input ≠ y.input)

theorem Apart.mono {v' : View} {q' : NonStreamingProcessor} (apart : Apart v q)
    (grows : Grows v.content v'.content) (begins : q.contentBlocks <+: q'.contentBlocks) :
    Apart v' q' := by
  obtain ⟨n, x, y, left, right, differs⟩ := apart
  obtain ⟨x', left', type, length, input⟩ := grows n x left
  refine ⟨n, x', y, left', getElem?_of_prefix (begins.filter _) right, ?_⟩
  rcases differs with types | lengths | inputs
  · left
    rw [type]
    exact types
  · right
    left
    omega
  · right
    right
    rw [input]
    exact inputs

/-- In the end the messages differ. -/
theorem Apart.differ {items blocks : List ClaudeContentItem} (apart : Apart v q)
    (grows : Grows v.content items) (begins : q.contentBlocks <+: blocks) :
    comparable items ≠ comparable blocks := by
  obtain ⟨n, x, y, left, right, differs⟩ := apart
  obtain ⟨x', left', type, length, input⟩ := grows n x left
  have right' := getElem?_of_prefix (begins.filter _) right
  intro same
  rw [same] at left'
  have equal : x' = y := by
    have both := left'.symm.trans right'
    cases both
    rfl
  rw [equal] at type length input
  rcases differs with types | lengths | inputs
  · exact types type.symm
  · omega
  · exact inputs input.symm

theorem part_grows (v : View) (part : GeminiPart) : Grows v.content (v.part ids part).content := by
  unfold View.part
  split
  · exact push_grows v _
  · have spoken : Grows v.content
        (if part.thought then v.thought part.text part.thoughtSignature
          else if part.text ≠ "" then v.said part.text part.thoughtSignature else v).content := by
      split
      · exact thought_grows v _ _
      · split
        · exact said_grows v _ _
        · exact Grows.refl _
    dsimp only
    split
    · exact spoken.trans (text_grows _ _)
    · exact spoken

theorem part_extends (q : NonStreamingProcessor) (part : GeminiPart) :
    q.contentBlocks <+: (q.processPart ids part).contentBlocks := by
  unfold processPart
  split
  · exact processFunctionCall_extends ids q _ _
  · have spoken : q.contentBlocks <+:
        (if part.text ≠ "" ∨ part.thought then
            if part.thought then q.processThinking part.text part.thoughtSignature
            else q.processText part.text part.thoughtSignature
          else q).contentBlocks := by
      split
      · split
        · exact processThinking_extends q _ _
        · exact processText_extends q _ _
      · exact List.prefix_refl _
    dsimp only
    split
    · exact spoken.trans (processImage_extends _ _)
    · exact spoken

/-- A call without arguments has an input in the stream only. -/
theorem Sim.callApart (sim : Sim last v q) {fc : GeminiFunctionCall} (absent : fc.args = none)
    (signature : String) :
    Apart (v.call ids fc signature) (q.processFunctionCall ids fc signature) := by
  obtain ⟨blocks, same, appended, _⟩ := @Sim.call v q last ids sim fc signature
  have called : (v.call ids fc signature).content =
      v.content ++ [toolItem ids v.generated fc signature (some (fc.args.getD "{}"))] :=
    List.append_nil _
  refine ⟨(comparable blocks).length, toolItem ids v.generated fc signature (some "{}"),
    toolItem ids v.generated fc signature none, ?_, ?_, Or.inr (Or.inr ?_)⟩
  · rw [called, comparable_append, same, absent,
      List.getElem?_append_right (Nat.le_refl _), Nat.sub_self]
    rfl
  · rw [appended, comparable_append, absent,
      List.getElem?_append_right (Nat.le_refl _), Nat.sub_self]
    rfl
  · intro impossible
    cases impossible

/-- Signed text overtakes the text that is still collected. -/
theorem Sim.signedApart (sim : Sim .text v q) {text signature : String} (nonempty : text ≠ "")
    (signed : signature ≠ "") :
    Apart (v.said text signature) (q.processText text signature) := by
  have collected := sim.collected
  unfold Collected at collected
  cases open_ : v.opened with
  | none =>
    rw [open_] at collected
    exact collected.elim
  | thinking thinking signature =>
    rw [open_] at collected
    exact collected.elim
  | text said =>
    rw [open_] at collected
    obtain ⟨same, _, saidNonempty, thinking, unsigned⟩ := collected
    have streamed : comparable (v.said text signature).content =
        comparable v.closed ++ [textItem said, textItem text, thinkingItem "" signature] := by
      have pushed : (v.said text signature).content =
          v.closed ++ [textItem said, textItem text, thinkingItem "" signature] := by
        unfold View.said
        rw [if_pos signed]
        unfold View.push View.content
        rw [open_]
        simp [OpenBlock.items]
      rw [pushed, comparable_append]
      congr 1
      simp [comparable, ClaudeContentItem.empty, textItem, thinkingItem, saidNonempty, nonempty,
        signed]
    have whole : comparable (q.processText text signature).contentBlocks =
        comparable v.closed ++ [textItem text, thinkingItem "" signature] := by
      unfold processText
      rw [if_neg nonempty, flushThinking_empty thinking unsigned,
        flushTrailing_none sim.untrailing]
      dsimp only
      rw [if_pos signed]
      change comparable ((q.contentBlocks ++ [_]) ++ [_]) = _
      rw [List.append_assoc, comparable_append, ← same]
      congr 1
      simp [comparable, ClaudeContentItem.empty, textItem, thinkingItem, nonempty, signed]
    refine ⟨(comparable v.closed).length + 1, textItem text, thinkingItem "" signature, ?_, ?_,
      Or.inl ?_⟩
    · rw [streamed, List.getElem?_append_right (Nat.le_add_right _ 1),
        Nat.add_sub_cancel_left]
      rfl
    · rw [whole, List.getElem?_append_right (Nat.le_add_right _ 1),
        Nat.add_sub_cancel_left]
      rfl
    · intro impossible
      cases impossible

/-- Text after an image goes on in the stream's block. -/
theorem Sim.imageApart (sim : Sim .image v q) {text : String} (nonempty : text ≠ "") :
    Apart (v.text text) q := by
  have collected := sim.collected
  unfold Collected at collected
  cases open_ : v.opened with
  | none =>
    rw [open_] at collected
    exact collected.elim
  | thinking thinking signature =>
    rw [open_] at collected
    exact collected.elim
  | text said =>
    rw [open_] at collected
    obtain ⟨same, saidNonempty, _⟩ := collected
    have longer : said ++ text ≠ "" := fun empty =>
      nonempty (String.append_eq_empty_iff.mp empty).2
    refine ⟨(comparable v.closed).length, textItem (said ++ text), textItem said, ?_, ?_,
      Or.inr (Or.inl ?_)⟩
    · unfold View.text View.content
      rw [open_]
      dsimp only [OpenBlock.items]
      rw [comparable_append, comparable_text longer, List.getElem?_append_right (Nat.le_refl _),
        Nat.sub_self]
      rfl
    · rw [← same, comparable_append, comparable_text saidNonempty,
        List.getElem?_append_right (Nat.le_refl _), Nat.sub_self]
      rfl
    · change said.length < (said ++ text).length
      rw [String.length_append]
      have positive : text.length ≠ 0 := fun empty => nonempty (String.length_eq_zero_iff.mp empty)
      omega

/-- A part that is not fine. -/
theorem Sim.part_apart (sim : Sim last v q) {part : GeminiPart} (unfine : ¬last.Fine part) :
    Apart (v.part ids part) (q.processPart ids part) := by
  unfold Last.Fine at unfine
  unfold View.part processPart
  cases call : part.functionCall with
  | some fc =>
    rw [call] at unfine
    exact sim.callApart (not_not.mp unfine) _
  | none =>
    rw [call] at unfine
    dsimp only at unfine ⊢
    by_cases textFine : part.thought = false → part.text ≠ "" → last.TextFine part.thoughtSignature
    · -- the text is fine, the image is not
      have imageUnfine : part.image ≠ none ∧ last.spoken part = .image := by
        by_contra fine
        apply unfine
        refine ⟨textFine, fun shown same => fine ⟨shown, same⟩⟩
      obtain ⟨shown, after_⟩ := imageUnfine
      obtain ⟨image, shown⟩ := Option.ne_none_iff_exists'.mp shown
      have imageless : last.Fine { part with inlineData := none } := by
        unfold Last.Fine
        rw [call]
        exact ⟨textFine, fun impossible => absurd rfl impossible⟩
      have spoken := @Sim.part v q last ids sim { part with inlineData := none } imageless
      have next : last.next { part with inlineData := none } = last.spoken part := by
        unfold Last.next
        rw [if_neg (not_not.mpr call)]
        rfl
      rw [next, after_] at spoken
      unfold View.part processPart at spoken
      rw [call] at spoken
      have apart := spoken.imageApart (part.image_nonempty shown)
      rw [shown]
      exact apart.mono (Grows.refl _) (processImage_extends _ image)
    · push Not at textFine
      obtain ⟨thought, nonempty, wrong⟩ := textFine
      have spoken : Apart (v.said part.text part.thoughtSignature)
          (q.processText part.text part.thoughtSignature) := by
        unfold Last.TextFine at wrong
        by_cases signed : part.thoughtSignature ≠ ""
        · rw [if_pos signed] at wrong
          rw [not_not.mp wrong] at sim
          exact sim.signedApart nonempty signed
        · rw [if_neg signed] at wrong
          rw [not_not.mp wrong] at sim
          unfold View.said
          rw [if_neg signed, not_not.mp signed]
          exact (sim.imageApart nonempty).mono (Grows.refl _) (processText_extends q _ _)
      rw [thought, if_neg (by decide), if_pos nonempty, if_pos (Or.inl nonempty),
        if_neg (by decide)]
      cases part.image with
      | some image => exact spoken.mono (text_grows _ _) (processImage_extends _ _)
      | none => exact spoken

/-! ### All parts -/

theorem parts_sim {parts : List GeminiPart} (sim : Sim last v q) (separate : Separate last parts) :
    ∃ last', Sim last' (parts.foldl (fun v part => v.part ids part) v)
      (parts.foldl (fun q part => q.processPart ids part) q) := by
  induction parts generalizing last v q with
  | nil => exact ⟨last, sim⟩
  | cons part rest ih => exact ih (sim.part separate.1) separate.2

theorem Apart.parts (apart : Apart v q) (parts : List GeminiPart) :
    Apart (parts.foldl (fun v part => v.part ids part) v)
      (parts.foldl (fun q part => q.processPart ids part) q) := by
  induction parts generalizing v q with
  | nil => exact apart
  | cons part rest ih => exact ih (apart.mono (part_grows v part) (part_extends q part))

theorem parts_apart {parts : List GeminiPart} (sim : Sim last v q)
    (mixed : ¬Separate last parts) :
    Apart (parts.foldl (fun v part => v.part ids part) v)
      (parts.foldl (fun q part => q.processPart ids part) q) := by
  induction parts generalizing last v q with
  | nil => exact absurd trivial mixed
  | cons part rest ih =>
    by_cases fine : last.Fine part
    · exact ih (sim.part fine) fun separate => mixed ⟨fine, separate⟩
    · exact (sim.part_apart fine).parts rest

end Simulation

/-! ### Whole responses -/

namespace StreamingProcessor

variable {ids : Ids}

/-- The chunks before the last one. -/
theorem before_shows {before : List V1InternalResponse}
    (unfinished : ∀ chunk ∈ before, chunk.response.finishReason = "" ∧
      chunk.response.groundingMetadata = none ∧ chunk.response.usageMetadata = none)
    {base p : StreamingProcessor} {v : View} {a : Assembly} (shows_ : Shows base v p a)
    (quiet : Quiet base) :
    Keeps reading (fun p' a => ∃ base', Shows base'
      ((before.flatMap (·.response.parts)).foldl (fun v part => v.part ids part) v) p' a ∧
        Quiet base') (run (processChunk ids) p before) a := by
  induction before generalizing base p v a with
  | nil => exact .silent ⟨base, shows_, quiet⟩
  | cons chunk rest ih =>
    obtain ⟨finish, grounding, usage⟩ := unfinished chunk (List.mem_cons_self ..)
    apply (processChunk_shows shows_ quiet usage grounding finish).run
    rintro a₁ ⟨base', shows', quiet'⟩
    rw [List.flatMap_cons, List.foldl_append]
    exact ih (fun chunk listed => unfinished chunk (List.mem_cons_of_mem _ listed)) shows' quiet'

/-- What the events of a distributed response assemble to. -/
theorem convert_reads {unmarshal : Unmarshal} {lines : List String} {resp : GeminiResponse}
    {before : List V1InternalResponse} {last : V1InternalResponse}
    (parsed : lines.filterMap (parseLine unmarshal) = before ++ [last])
    (distributes : Distributes resp before last) (model : String) :
    let v := resp.parts.foldl (fun v part => v.part ids part) ({} : View)
    let a := assemble (convert ids unmarshal lines model).2
    a.content = v.content ++ groundingItems (resp.groundingMetadata.elim "" buildGroundingText) ∧
      a.stopReason = stopReason v.usedTool resp.finishReason ∧
      a.usage = resp.usageMetadata.elim {} GeminiUsageMetadata.claudeUsage := by
  intro v a
  have began : Shows { originalModel := model } {} { originalModel := model } {} := by
    refine ⟨⟨rfl, rfl, rfl, ?_⟩, rfl, rfl, rfl, rfl⟩
    intro b impossible
    cases impossible
  have kept := @before_shows ids before distributes.unfinished _ _ _ _ began ⟨rfl, rfl, rfl, rfl⟩
  have whole : Keeps reading (Read (v.content ++
      groundingItems (resp.groundingMetadata.elim "" buildGroundingText))
      (stopReason v.usedTool resp.finishReason)
      (resp.usageMetadata.elim {} GeminiUsageMetadata.claudeUsage))
      (convert ids unmarshal lines model) {} := by
    unfold convert
    rw [StreamingProcessor.run_lines, parsed, run_append]
    have split : ∀ p : StreamingProcessor, run (processChunk ids) p [last] =
        p.processChunk ids last := by
      intro p
      rw [run_cons]
      simp
    rw [split]
    change Keeps reading _ (andThen (andThen (run (processChunk ids) _ before)
      (fun p => p.processChunk ids last)) finish) _
    rw [andThen_assoc]
    apply kept.andThen
    rintro a₁ ⟨base', shows', quiet'⟩
    have ended := @last_reads _ _ _ _ ids shows' quiet' last
    rw [← List.foldl_append, distributes.parts, distributes.grounding, distributes.finishReason,
      distributes.usage] at ended
    exact ended
  obtain ⟨a', observed, read⟩ := whole
  rw [observe_reading] at observed
  cases observed
  exact ⟨read.content, read.reason, read.usage⟩

end StreamingProcessor

open NonStreamingProcessor in
/-- What the other converter makes of separate parts. -/
theorem Sim.process {last : Last} {v : View} {q : NonStreamingProcessor} (sim : Sim last v q)
    (grounding : Option GeminiGroundingMetadata) :
    comparable ((grounding.elim q q.processGrounding).flushThinking.flushText.flushTrailing
        id).contentBlocks =
      comparable (v.content ++
        StreamingProcessor.groundingItems (grounding.elim "" buildGroundingText)) ∧
    ((grounding.elim q q.processGrounding).flushThinking.flushText.flushTrailing
        id).hasToolCall = v.usedTool := by
  have flushed := sim.flushed
  obtain ⟨text, thinking, unsigned, trailing, used, _⟩ := flushed.kept
  rw [sim.untrailing] at trailing
  have silent : comparable (q.flushThinking.flushText.flushTrailing id).contentBlocks =
      comparable (v.content ++ StreamingProcessor.groundingItems "") ∧
      (q.flushThinking.flushText.flushTrailing id).hasToolCall = v.usedTool := by
    rw [flushTrailing_none trailing]
    refine ⟨?_, used.trans sim.usedTool⟩
    unfold StreamingProcessor.groundingItems
    rw [if_pos rfl, List.append_nil]
    exact flushed.blocks.symm
  cases grounding with
  | none => exact silent
  | some grounding =>
    dsimp only [Option.elim]
    by_cases empty : buildGroundingText grounding = ""
    · have same : q.processGrounding grounding = q := if_pos empty
      rw [same, empty]
      exact silent
    · have grounded : q.processGrounding grounding =
          q.flushThinking.flushText.settled (q.flushThinking.flushText.contentBlocks ++
            [textItem (buildGroundingText grounding)]) := by
        unfold processGrounding
        dsimp only
        rw [if_neg empty]
        generalize q.flushThinking.flushText = q' at text thinking unsigned
        have added := @flushText_settled
          { q' with textBuilder := q'.textBuilder ++ buildGroundingText grounding } thinking
          unsigned (by
            dsimp only
            rw [text, String.empty_append]
            exact empty)
        dsimp only at added
        rw [added, text, String.empty_append]
        rfl
      rw [grounded, flushThinking_empty rfl rfl, flushText_empty rfl,
        @flushTrailing_none (q.flushThinking.flushText.settled _) trailing id]
      refine ⟨?_, used.trans sim.usedTool⟩
      change comparable (_ ++ _) = _
      unfold StreamingProcessor.groundingItems
      rw [if_neg empty, comparable_append, comparable_append, flushed.blocks]

open NonStreamingProcessor in
theorem process_extends (q : NonStreamingProcessor) (grounding : Option GeminiGroundingMetadata) :
    q.contentBlocks <+: ((grounding.elim q q.processGrounding).flushThinking.flushText.flushTrailing
      id).contentBlocks := by
  have grounded : q.contentBlocks <+: (grounding.elim q q.processGrounding).contentBlocks := by
    cases grounding with
    | none => exact List.prefix_refl _
    | some grounding => exact processGrounding_extends q grounding
  have flushed := (grounded.trans (flushThinking_extends _)).trans (flushText_extends _)
  exact flushed.trans (flushTrailing_extends _ fun q => List.prefix_refl q.contentBlocks)

open NonStreamingProcessor in
/-- However the parts are distributed, the streamed message agrees with the finished one exactly
when the parts are separate. -/
theorem agrees_iff (ids : Ids) (unmarshal : Unmarshal) (lines : List String)
    (resp : GeminiResponse) (before : List V1InternalResponse) (last : V1InternalResponse)
    (parsed : lines.filterMap (StreamingProcessor.parseLine unmarshal) = before ++ [last])
    (distributes : Distributes resp before last) (responseID model : String) :
    Agrees (assemble (StreamingProcessor.convert ids unmarshal lines model).2)
        (process {} ids resp responseID model) ↔
      Separate .other resp.parts := by
  obtain ⟨content, reason, usage⟩ :=
    @StreamingProcessor.convert_reads ids unmarshal lines resp before last parsed distributes model
  have began : Sim .other {} {} := ⟨⟨rfl, rfl, rfl, rfl⟩, rfl, rfl, rfl⟩
  unfold Agrees
  rw [content, reason, usage]
  constructor
  · intro agrees
    by_contra mixed
    have apart := @parts_apart _ _ _ ids resp.parts began mixed
    apply apart.differ (Grows.append _ _) ?_ agrees.1
    exact process_extends _ resp.groundingMetadata
  · intro separate
    obtain ⟨last', sim⟩ := @parts_sim _ _ _ ids resp.parts began separate
    obtain ⟨blocks, used⟩ := sim.process resp.groundingMetadata
    refine ⟨blocks.symm, ?_, rfl⟩
    rw [← used]
    rfl

/-! ### Signed text after unsigned text -/

namespace Sample

/-- A response with these parts. -/
def response (parts : List GeminiPart) : GeminiResponse where
  candidates := [{ content := some { parts }, finishReason := "STOP" }]

/-- Reads a line of it. -/
def unmarshalParts (parts : List GeminiPart) : Unmarshal where
  v1 _ := some { response := response parts }
  direct _ := none

/-- Its JSON, with the JSON of the parts. -/
def partsData (parts : String) : String :=
  "\x7b\"response\":" ++ ("\x7b\"candidates\":[" ++ ("\x7b\"content\":" ++ ("\x7b\"parts\":[" ++
    (parts ++ ("]\x7d,\"finishReason\":" ++ "\"STOP\"\x7d]\x7d\x7d")))))

open Go in
theorem noBlank_partsData {parts : String} (noBlank : NoBlank parts) :
    NoBlank (partsData parts) := by
  refine .append ?_ (.append ?_ (.append ?_ (.append ?_ (.append noBlank (.append ?_ ?_)))))
  all_goals decide +kernel

def overtaken : List GeminiPart := [{ text := "a" }, { text := "b", thoughtSignature := "s" }]

def overtakenData : String :=
  partsData ("\x7b\"text\":\"a\"\x7d," ++ ("\x7b\"text\":\"b\"," ++ "\"thoughtSignature\":\"s\"\x7d"))

theorem parsed_overtaken : StreamingProcessor.parseLine (unmarshalParts overtaken)
    ("data:" ++ overtakenData) = some { response := response overtaken } := by
  apply StreamingProcessor.parseLine_data _ (by decide +kernel) (by decide +kernel) rfl
  apply noBlank_partsData
  refine .append ?_ (.append ?_ ?_)
  all_goals decide +kernel

def inOrder : List GeminiPart :=
  [{ text := "t", thought := true, thoughtSignature := "s" }, { text := "a" }]

def inOrderData : String :=
  partsData ("\x7b\"text\":\"t\"," ++ ("\"thought\":true," ++ ("\"thoughtSignature\":\"s\"\x7d," ++
    "\x7b\"text\":\"a\"\x7d")))

theorem parsed_inOrder : StreamingProcessor.parseLine (unmarshalParts inOrder)
    ("data:" ++ inOrderData) = some { response := response inOrder } := by
  apply StreamingProcessor.parseLine_data _ (by decide +kernel) (by decide +kernel) rfl
  apply noBlank_partsData
  refine .append ?_ (.append ?_ (.append ?_ ?_))
  all_goals decide +kernel

end Sample

/-- The signed text comes before the unsigned one. -/
theorem signed_text_overtakes :
    ¬Agrees (assemble (StreamingProcessor.convert Sample.ids
        (Sample.unmarshalParts Sample.overtaken) ["data:" ++ Sample.overtakenData] "m").2)
      (NonStreamingProcessor.process {} Sample.ids (Sample.response Sample.overtaken) "" "m") := by
  unfold StreamingProcessor.convert
  rw [StreamingProcessor.run_lines, List.filterMap_cons_some Sample.parsed_overtaken,
    List.filterMap_nil]
  decide +kernel

theorem agrees_inOrder :
    Agrees (assemble (StreamingProcessor.convert Sample.ids
        (Sample.unmarshalParts Sample.inOrder) ["data:" ++ Sample.inOrderData] "m").2)
      (NonStreamingProcessor.process {} Sample.ids (Sample.response Sample.inOrder) "" "m") := by
  refine (agrees_iff Sample.ids (Sample.unmarshalParts Sample.inOrder)
    ["data:" ++ Sample.inOrderData] (Sample.response Sample.inOrder) []
    { response := Sample.response Sample.inOrder }
    (List.filterMap_cons_some Sample.parsed_inOrder) ⟨rfl, ?_, rfl, rfl, rfl⟩ "" "m").mpr ?_
  · intro chunk impossible
    cases impossible
  · refine ⟨⟨?_, ?_⟩, ⟨?_, ?_⟩, trivial⟩
    · intro impossible
      cases impossible
    · exact fun impossible => absurd rfl impossible
    · intro _ _ impossible
      cases impossible
    · exact fun impossible => absurd rfl impossible

end Sub2api.Antigravity
