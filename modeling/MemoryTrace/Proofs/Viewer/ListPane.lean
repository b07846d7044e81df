import Mathlib.Data.List.Induction
import MemoryTrace.Proofs.Viewer.Watching

namespace MemoryTrace.Viewer

variable {α : Type}

/-- A window that is not scrolled further than it has to be is as long as the list allows. -/
theorem window_of_within {offset height : Nat} {items : List α} (within : offset ≤ items.length - height) :
    window offset height items = (items.drop offset).take (min height items.length) ∧
      (window offset height items).length = min height items.length := by
  have shown : window offset height items = (items.drop offset).take (min height items.length) := by
    refine List.take_eq_take_iff.mpr ?_
    rw [List.length_drop]
    omega
  refine ⟨shown, ?_⟩
  rw [shown, List.length_take, List.length_drop]
  omega

/-- What scrolls a list pane: two keys, and each draw of its items in a box of some height. -/
inductive ListAction (α : Type)
  | up
  | down
  | draw (height : Nat) (items : List α)

namespace ListAction

/-- The scroll after an action. -/
def scroll (before : ListScroll) : ListAction α → ListScroll
  | up => before.up
  | down => before.down
  | draw height items => (before.visibleItems height items).1

/-- What an action draws, if it draws. -/
def drawn? : ListAction α → Option (List α)
  | draw _ items => some items
  | up | down => none

/-- The last of the lists that were drawn. Before the first draw there are no items. -/
def lastDrawn (actions : List (ListAction α)) : List α := (actions.filterMap drawn?).getLast?.getD []

/-- The last list is that of the last action, if that draws. -/
theorem lastDrawn_concat (actions : List (ListAction α)) (action : ListAction α) :
    lastDrawn (actions ++ [action]) = action.drawn?.getD (lastDrawn actions) := by
  cases action <;> simp [lastDrawn, drawn?]

end ListAction

namespace ListScroll

/-- The scroll of a pane after some actions. Before them it is at the top, with nothing drawn. -/
def after (actions : List (ListAction α)) : ListScroll := actions.foldl ListAction.scroll {}

theorem after_concat (actions : List (ListAction α)) (action : ListAction α) :
    after (actions ++ [action]) = action.scroll (after actions) := by
  rw [after, List.foldl_append]
  rfl

/-- Only a draw changes the number of items that is remembered. -/
theorem itemCount_scroll (before : ListScroll) (action : ListAction α) :
    (action.scroll before).itemCount = (action.drawn?.map List.length).getD before.itemCount := by
  cases action <;> rfl

/-- The pane remembers how many items it has drawn last. -/
theorem itemCount_after (actions : List (ListAction α)) :
    (after actions).itemCount = (ListAction.lastDrawn actions).length := by
  induction actions using List.reverseRecOn with
  | nil => rfl
  | append_singleton actions action ih =>
    rw [after_concat, itemCount_scroll, ih, ListAction.lastDrawn_concat]
    cases action.drawn? <;> rfl

/-- A draw scrolls as far as the list goes, or stays above that. -/
theorem offset_follow (before : ListScroll) (height count : Nat) :
    (before.follow height count).offset =
      if before.itemCount < count then count - min (visibleHeight height) count
      else min before.offset (count - min (visibleHeight height) count) := by
  have furthest : count - visibleHeight height = count - min (visibleHeight height) count := by omega
  rw [follow, furthest]

end ListScroll

/-- Actions of a list pane have scrolled it so. -/
def Scrolled (scroll : ListScroll) : Prop := ∃ actions : List (ListAction Line), ListScroll.after actions = scroll

theorem Scrolled.action {scroll : ListScroll} (scrolled : Scrolled scroll) (action : ListAction Line) :
    Scrolled (action.scroll scroll) := by
  obtain ⟨actions, rfl⟩ := scrolled
  exact ⟨actions ++ [action], ListScroll.after_concat actions action⟩

/-- Each list pane of a viewer is scrolled by actions of its own. -/
structure ListsScrolled (v : Viewer) : Prop where
  stack : Scrolled v.stackScroll
  heap : Scrolled v.heapScroll
  events : Scrolled v.eventsScroll

namespace ListsScrolled

variable {v : Viewer}

/-- The arrow keys scroll the pane with the focus, and no other. -/
theorem scrollBy (lists : ListsScrolled v) {list : ListScroll → ListScroll}
    (kept : ∀ {scroll}, Scrolled scroll → Scrolled (list scroll)) (source : SourceScroll → SourceScroll) :
    ListsScrolled (v.scrollBy list source) := by
  unfold Viewer.scrollBy
  split
  · exact ⟨lists.stack, lists.heap, lists.events⟩
  · exact ⟨kept lists.stack, lists.heap, lists.events⟩
  · exact ⟨lists.stack, kept lists.heap, lists.events⟩
  · exact ⟨lists.stack, lists.heap, kept lists.events⟩

/-- A key scrolls a list pane by its actions or not at all. -/
theorem press (lists : ListsScrolled v) (key : Key) (rested : Bool) : ListsScrolled (v.press key rested) := by
  have pressed := pressed_press v key rested
  generalize v.press key rested = w at pressed
  cases pressed with
  | up => exact lists.scrollBy (fun scrolled => scrolled.action .up) _
  | down => exact lists.scrollBy (fun scrolled => scrolled.action .down) _
  | moved => exact ⟨lists.stack, lists.heap, lists.events⟩

theorem draw (lists : ListsScrolled v) (width height : Nat) : ListsScrolled (v.draw width height).1 := by
  unfold Viewer.draw
  split
  · exact lists
  · refine ⟨lists.stack.action (.draw ..), lists.heap.action (.draw ..), ?_⟩
    dsimp only
    unfold drawEvents
    split
    · exact lists.events
    · exact lists.events.action (.draw ..)

end ListsScrolled

/-- On a recording all list panes begin at the top. -/
theorem Watched.listsScrolled {recording : Recording} {source : Text} {outcome : String} {v : Viewer}
    (watched : Watched (ofRecording recording source outcome) v) : ListsScrolled v := by
  induction watched with
  | opened => exact ⟨⟨[], rfl⟩, ⟨[], rfl⟩, ⟨[], rfl⟩⟩
  | pressed _ key rested ih => exact ih.press key rested
  | drawn _ width height ih => exact ih.draw width height
  | sourceDrawn _ _ _ _ _ _ ih => exact ⟨ih.stack, ih.heap, ih.events⟩

/-- A draw of a list pane shows as many items as there is room for in its box, in one piece. If there are more of them
than at the last draw then the newest item is the last one shown, and otherwise the pane is scrolled to where it was,
unless the list ends before. -/
theorem list_pane_is_full (actions : List (ListAction α)) {height : Nat} (tall : 3 ≤ height) (items : List α) :
    ∃ offset shown, (ListScroll.after actions).visibleItems height items = ({ offset, itemCount := items.length }, shown) ∧
      let count := min (height - 2) items.length
      shown = (items.drop offset).take count ∧ shown.length = count ∧ offset + count ≤ items.length ∧
        if (ListAction.lastDrawn actions).length < items.length then offset + count = items.length
        else offset = min (ListScroll.after actions).offset (items.length - count) := by
  let next := (ListScroll.after actions).follow height items.length
  have visible := visibleHeight_of_tall tall
  have offset : next.offset = _ := ListScroll.offset_follow ..
  rw [visible, ListScroll.itemCount_after] at offset
  have within : next.offset ≤ items.length - (height - 2) := by
    split at offset <;> omega
  obtain ⟨shown, length⟩ := window_of_within within
  refine ⟨next.offset, window next.offset (height - 2) items, ?_, shown, length, by omega, ?_⟩
  · rw [ListScroll.visibleItems, visible]
    rfl
  · split
    · rename_i grown
      rw [if_pos grown] at offset
      omega
    · rename_i kept
      rwa [if_neg kept] at offset

/-- Ten items are scrolled past their end, and then seven are drawn in a higher box. -/
theorem list_pane_is_full_of_fewer_items :
    ∃ (actions : List (ListAction Nat)) (offset : Nat), (ListScroll.after actions).offset = 9 ∧
      (ListScroll.after actions).visibleItems 6 (List.range 7) = ({ offset, itemCount := 7 }, [3, 4, 5, 6]) ∧
      offset + 4 = 7 := by
  let actions : List (ListAction Nat) := [.draw 5 (List.range 10), .down, .down]
  obtain ⟨offset, shown, drawn, taken, length, within, scrolled⟩ :=
    list_pane_is_full actions (by decide : 3 ≤ 6) (List.range 7)
  rw [if_neg (by decide)] at scrolled
  obtain rfl : offset = 3 := scrolled.trans (by decide)
  exact ⟨actions, 3, by decide, drawn.trans (by rw [taken]; rfl), rfl⟩

end MemoryTrace.Viewer
