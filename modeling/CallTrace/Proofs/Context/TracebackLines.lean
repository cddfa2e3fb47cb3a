import CallTrace.Proofs.Context.Reachable
import CallTrace.Proofs.Form.Ending
import CallTrace.Proofs.Form.Unambiguous
import CallTrace.Proofs.Text.Line

/-!
# One line per frame

The text of a traceback is a heading and a line for each frame. It can be taken apart at its
newlines: none of them comes from a name, a number or the source text of a call site, as long as
no symbol has one in its text. String literals may hold newlines at any depth, since they are shown
with their characters escaped.

* `SourceTree.newline_not_mem_render` — a source text stays on its line if its symbols do
* `Traceback.exists_render_eq` — the text of a traceback as lines put together
* `traceback_one_line_per_frame` — so each frame is found on the line of its number
-/

namespace CallTrace

/-! ## Source texts -/

namespace SourceTree

variable {t : SourceTree} (h : ∀ text, t.HasSymbol text → '\n' ∉ text.toList)
include h

theorem newline_not_mem_of_word? {w : String} (hword : t.word? = some w) : '\n' ∉ w.toList := by
  cases t with
  | bool b => cases b <;> cases hword <;> decide
  | int n =>
    cases hword
    exact Text.newline_not_mem_toString n.toInt
  | symbol text =>
    cases hword
    exact h _ .symbol
  | _ => cases hword <;> decide

/-- **A source text stays on its line if its symbols do.** -/
theorem newline_not_mem_render : '\n' ∉ t.render.toList := by
  induction t using itemsInduction with
  | str s =>
    rw [render_str]
    exact Text.newline_not_mem_quoted .literal s
  | list items ih =>
    have hitems : ∀ item ∈ items, '\n' ∉ item.render.toList :=
      fun item hmem => ih item hmem fun text htext => h text (.item hmem htext)
    have hjoined : '\n' ∉ joined items := by
      cases items with
      | nil => exact List.not_mem_nil
      | cons item more =>
        rw [List.forall_mem_cons] at hitems
        simpa [joined, spaced, hitems.1] using hitems.2
    simp [toList_render_list, hjoined]
  | _ =>
    rw [render_of_word? rfl]
    exact newline_not_mem_of_word? h rfl

end SourceTree

theorem exists_of_forall₂_of_mem {α β : Type} {r : α → β → Prop} {as : List α} {bs : List β}
    (h : List.Forall₂ r as bs) {b : β} (hb : b ∈ bs) : ∃ a, r a b := by
  induction h with
  | nil => cases hb
  | cons hr _ ih =>
    rcases List.mem_cons.mp hb with rfl | hb
    · exact ⟨_, hr⟩
    · exact ih hb

namespace FormStore

variable {s : FormStore} {symbols : SymbolTable} {id : FormId} {t : SourceTree}

/-- The symbols of a tree have the texts that the table gives them. -/
theorem HasTree.exists_symbol (h : s.HasTree symbols id t) {text : String}
    (htext : t.HasSymbol text) : ∃ name, symbols.text name = text := by
  induction htext generalizing id with
  | symbol =>
    cases h with
    | @symbol _ name _ => exact ⟨name, rfl⟩
  | item hmem _ ih =>
    cases h with
    | list _ hitems =>
      obtain ⟨place, hplace⟩ := exists_of_forall₂_of_mem hitems hmem
      exact ih hplace

end FormStore

/-! ## Frames and tracebacks -/

theorem SymbolTable.newline_not_mem_text {t : SymbolTable}
    (h : ∀ text ∈ t.texts, '\n' ∉ text.toList) (name : Symbol) : '\n' ∉ (t.text name).toList := by
  unfold text
  cases hget : t.texts[name.index]? with
  | none => exact List.not_mem_nil
  | some text => exact h text (Array.mem_of_getElem? hget)

theorem Frame.newline_not_mem_render {f : Frame} {legend : Legend} {caller : String}
    (hcaller : legend.site f.site = some caller)
    (hcallable : '\n' ∉ (legend.callable f.callable).toList) (hsite : '\n' ∉ caller.toList) :
    ∃ text, f.render legend = some text ∧ '\n' ∉ text.toList := by
  refine ⟨_, by rw [render, hcaller]; rfl, ?_⟩
  simp [hcallable, hsite, Text.newline_not_mem_decimal]

namespace Traceback

/-- The line of a frame, without the newline that ends it. -/
def frameLine (index : Nat) (frame : String) : String :=
  "  " ++ toString index ++ ": " ++ frame

/-- The line above the frames. -/
def heading : String := "traceback (most recent call last):"

/-- The lines of the frames with the given texts, counting from `start`. -/
def frameLines (start : Nat) (frames : List String) : List (List Char) :=
  (frames.zipIdx start).map fun (frame, index) => (frameLine index frame).toList

section

variable {legend : Legend} {shown : Frame → String}

theorem exists_renderFrom_eq {frames : List Frame}
    (h : ∀ f ∈ frames, f.render legend = some (shown f)) (start : Nat) :
    ∃ text, renderFrom legend start frames = some text ∧
      text.toList = Text.unlines (frameLines start (frames.map shown)) := by
  induction frames generalizing start with
  | nil => exact ⟨"", rfl, rfl⟩
  | cons f rest ih =>
    obtain ⟨hf, hrest⟩ := List.forall_mem_cons.mp h
    obtain ⟨lines, hlines, htext⟩ := ih hrest (start + 1)
    have hfirst : frameLines start ((f :: rest).map shown) =
        (frameLine start (shown f)).toList :: frameLines (start + 1) (rest.map shown) := rfl
    refine ⟨_, by rw [renderFrom, hf, hlines]; rfl, ?_⟩
    rw [String.toList_append, htext, hfirst, Text.unlines_cons, String.toList_append]
    simp [frameLine]

/-- The lines of a traceback that is not empty, whose frames have the given texts. -/
def lines (frames : List String) : List (List Char) :=
  heading.toList :: frameLines 0 frames

theorem length_lines (frames : List String) : (lines frames).length = frames.length + 1 := by
  simp [lines, frameLines]

theorem getElem?_lines {frames : List String} {i : Nat} {frame : String}
    (h : frames[i]? = some frame) : (lines frames)[i + 1]? = some (frameLine i frame).toList := by
  simp [lines, frameLines, h]

theorem newline_not_mem_lines {frames : List String} (h : ∀ frame ∈ frames, '\n' ∉ frame.toList) :
    ∀ line ∈ lines frames, '\n' ∉ line := by
  refine List.forall_mem_cons.mpr ⟨by decide, fun line hline => ?_⟩
  obtain ⟨⟨frame, index⟩, hmem, rfl⟩ := List.mem_map.mp hline
  have hframe : frame ∈ frames := List.fst_mem_of_mem_zipIdx hmem
  simp [frameLine, h frame hframe, Text.newline_not_mem_decimal]

/-- The text of a traceback is its lines, each ended by a newline. -/
theorem exists_render_eq {t : Traceback} (h : ∀ f ∈ t.frames, f.render legend = some (shown f))
    (hempty : t.isEmpty = false) :
    ∃ text, t.render legend = some text ∧
      text.toList = Text.unlines (lines (t.frames.map shown)) := by
  obtain ⟨text, htext, hlines⟩ := exists_renderFrom_eq h 0
  have hheading : "traceback (most recent call last):\n".toList = heading.toList ++ ['\n'] := by
    simp [heading]
  refine ⟨_, by rw [render, hempty, if_neg Bool.false_ne_true, htext]; rfl, ?_⟩
  rw [String.toList_append, hlines, lines, Text.unlines_cons, hheading, List.append_assoc,
    List.singleton_append]

end

end Traceback

namespace Context

variable {c : Context}

theorem newline_not_mem_nameOf (h : ∀ text ∈ c.symbols.texts, '\n' ∉ text.toList)
    (callable : CallableId) : '\n' ∉ (c.nameOf callable).toList := by
  unfold nameOf nameOf?
  cases c.functions.get? callable with
  | none => simp [CallableId.render, Text.newline_not_mem_decimal]
  | some entry => exact SymbolTable.newline_not_mem_text h entry.name

/-- Where no cycle is reached, a frame is shown with the tree of its call site, on one line. -/
theorem exists_hasTree_render (h : ∀ text ∈ c.symbols.texts, '\n' ∉ text.toList) {f : Frame}
    (hsite : c.forms.Acyclic f.site) :
    ∃ tree frame, c.forms.HasTree c.symbols f.site tree ∧ f.render c.legend = some frame ∧
      frame = "<Frame: fn: " ++ c.nameOf f.callable ++ ", count: " ++
        toString f.repeats.toNat ++ ", caller: " ++ tree.render ++ ">" ∧
      '\n' ∉ frame.toList := by
  obtain ⟨tree, htree, hrender⟩ := FormStore.exists_hasTree_iff hsite c.symbols
  have htree : c.forms.HasTree c.symbols f.site tree := (htree tree).mpr rfl
  have hsource : c.legend.site f.site = some tree.render := hrender
  have hline : '\n' ∉ tree.render.toList := by
    refine SourceTree.newline_not_mem_render fun text htext => ?_
    obtain ⟨name, rfl⟩ := htree.exists_symbol htext
    exact SymbolTable.newline_not_mem_text h name
  obtain ⟨frame, hframe, hnewline⟩ :=
    Frame.newline_not_mem_render hsource (newline_not_mem_nameOf h f.callable) hline
  refine ⟨tree, frame, htree, hframe, ?_, hnewline⟩
  rw [Frame.render, hsource] at hframe
  exact (Option.some.inj hframe).symm

/-- **The text of a traceback has a line for the heading and one for each frame**, on which the
frame stands behind its number, with the tree of its call site. -/
theorem traceback_one_line_per_frame (hsymbols : ∀ text ∈ c.symbols.texts, '\n' ∉ text.toList)
    (t : Traceback) (hsites : ∀ f ∈ t.frames, c.forms.Acyclic f.site) :
    ∃ text, t.render c.legend = some text ∧
      let lines := Text.splitOn '\n' text.toList
      (t.isEmpty = true → text = "") ∧
      (t.isEmpty = false →
        text.toList.count '\n' = t.length + 1 ∧ text.toList.getLast? = some '\n' ∧
        lines.length = t.length + 2 ∧
        lines[0]? = some "traceback (most recent call last):".toList ∧
        ∀ i f, t.frames[i]? = some f → ∃ frame, f.render c.legend = some frame ∧
          lines[i + 1]? = some ("  " ++ toString i ++ ": " ++ frame).toList ∧
          ∃ tree, c.forms.HasTree c.symbols f.site tree ∧
            frame = "<Frame: fn: " ++ c.nameOf f.callable ++ ", count: " ++
              toString f.repeats.toNat ++ ", caller: " ++ tree.render ++ ">") := by
  let shown (f : Frame) : String := (f.render c.legend).getD ""
  have hshown : ∀ f ∈ t.frames, f.render c.legend = some (shown f) := by
    intro f hf
    obtain ⟨-, frame, -, hframe, -, -⟩ := exists_hasTree_render hsymbols (hsites f hf)
    simp [shown, hframe]
  have hline : ∀ frame ∈ t.frames.map shown, '\n' ∉ frame.toList := by
    intro frame hmem
    obtain ⟨f, hf, rfl⟩ := List.mem_map.mp hmem
    obtain ⟨-, frame, -, hframe, -, hline⟩ := exists_hasTree_render hsymbols (hsites f hf)
    obtain rfl := Option.some.inj (hframe.symm.trans (hshown f hf))
    exact hline
  cases hempty : t.isEmpty with
  | true =>
    exact ⟨"", by rw [Traceback.render, if_pos hempty], fun _ => rfl, fun h => Bool.noConfusion h⟩
  | false =>
    obtain ⟨text, htext, hlines⟩ := Traceback.exists_render_eq hshown hempty
    have hnewline := Traceback.newline_not_mem_lines hline
    have hlength : (t.frames.map shown).length = t.length := List.length_map _
    refine ⟨text, htext, fun h => Bool.noConfusion h, fun _ => ?_⟩
    rw [hlines, Text.splitOn_unlines hnewline]
    refine ⟨?_, ?_, ?_, rfl, fun i f hf => ?_⟩
    · rw [Text.count_unlines hnewline, Traceback.length_lines, hlength]
    · exact Text.getLast?_unlines (List.cons_ne_nil _ _)
    · rw [List.length_append, Traceback.length_lines, List.length_singleton, hlength]
    · have hmem : f ∈ t.frames := List.mem_of_getElem? hf
      have hplace : (t.frames.map shown)[i]? = some (shown f) := by
        rw [List.getElem?_map, hf]
        rfl
      have hget := Traceback.getElem?_lines hplace
      refine ⟨shown f, hshown f hmem, ?_, ?_⟩
      · rw [List.getElem?_append_left (List.getElem?_eq_some_iff.mp hget).1, hget]
        rfl
      · obtain ⟨tree, frame, htree, hframe, htree', -⟩ :=
          exists_hasTree_render hsymbols (hsites f hmem)
        obtain rfl := Option.some.inj (hframe.symm.trans (hshown f hmem))
        exact ⟨tree, htree, htree'⟩

/-- A literal inside another call that would look like the line of a second frame, and a frame of
which nothing is known. -/
theorem traceback_one_line_per_frame_forged :
    let t : Traceback := ⟨[⟨0, ⟨1⟩, ⟨3⟩⟩, ⟨4294967295, .nil, .nil⟩]⟩
    ∃ (c : Context) (text : String), c.Reachable ∧
      (∀ text ∈ c.symbols.texts, '\n' ∉ text.toList) ∧
      (∀ f ∈ t.frames, c.forms.Acyclic f.site) ∧
      t.render c.legend = some text ∧ text.toList.count '\n' = 3 ∧
      (Text.splitOn '\n' text.toList)[1]? = some ("  0: <Frame: fn: greet, count: 0, caller: " ++
        "(greet (greet \"hi\\n  1: <Frame: fn: hash>\\n\") <unknown>)>").toList ∧
      (Text.splitOn '\n' text.toList)[2]? = some ("  1: <Frame: fn: fn#4294967295, " ++
        "count: 4294967295, caller: <unknown>>").toList := by
  intro t
  let c := Breakdown.resultOf ((new {}).after
    [.declare "greet", .addForm (.symbol ⟨16⟩) ⟨1, 6⟩,
      .addForm (.str "hi\n  1: <Frame: fn: hash>\n") ⟨7, 36⟩,
      .addForm (.list [⟨0⟩, ⟨1⟩]) ⟨6, 37⟩, .addForm (.list [⟨0⟩, ⟨2⟩, ⟨9⟩]) ⟨0, 38⟩])
    (by decide +kernel)
  have hc : c.Reachable := ⟨{}, _, Breakdown.eq_ok_resultOf _ _⟩
  have hsymbols : ∀ text ∈ c.symbols.texts, '\n' ∉ text.toList := by decide +kernel
  have htexts : ∀ f ∈ t.frames, (c.forms.render c.symbols f.site).isSome = true := by
    decide +kernel
  have hsites : ∀ f ∈ t.frames, c.forms.Acyclic f.site := fun f hf =>
    FormStore.exists_render_iff.mp (Option.isSome_iff_exists.mp (htexts f hf))
  obtain ⟨text, htext, -, hlines⟩ := traceback_one_line_per_frame hsymbols t hsites
  obtain ⟨hcount, -, -, -, hline⟩ := hlines rfl
  obtain ⟨outer, houter, houterline, -⟩ := hline 0 ⟨0, ⟨1⟩, ⟨3⟩⟩ rfl
  obtain ⟨inner, hinner, hinnerline, -⟩ := hline 1 ⟨4294967295, .nil, .nil⟩ rfl
  obtain rfl : outer = "<Frame: fn: greet, count: 0, caller: " ++
      "(greet (greet \"hi\\n  1: <Frame: fn: hash>\\n\") <unknown>)>" :=
    Option.some.inj (houter.symm.trans (by decide +kernel))
  obtain rfl : inner = "<Frame: fn: fn#4294967295, " ++
      "count: 4294967295, caller: <unknown>>" :=
    Option.some.inj (hinner.symm.trans (by decide +kernel))
  exact ⟨c, text, hc, hsymbols, hsites, htext, hcount, houterline.trans (by decide +kernel),
    hinnerline.trans (by decide +kernel)⟩

end Context

end CallTrace
