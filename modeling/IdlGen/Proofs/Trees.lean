import IdlGen.Proofs.Paths

/-!
File trees as maps from places to texts. Writing a file changes the text at its place and nowhere
else (`write_eq_put`, `textAt_put`), whatever way its path takes.
-/
namespace IdlGen.FileTree

/-- The text of the file at a place. -/
def textAt (tree : FileTree) (place : Place) : Option String :=
  match tree.node? place with
  | some (.file content) => some content
  | _ => none

variable {place other : Place} {tree after : FileTree} {path content : String} {names : List String}

private theorem lookup_filter_ne (away : other ≠ place) (nodes : List (Place × FileNode)) :
    (nodes.filter fun entry => entry.1 ≠ place).lookup other = nodes.lookup other := by
  induction nodes with
  | nil => rfl
  | cons entry rest ih =>
    obtain ⟨first, node⟩ := entry
    by_cases here : first = place
    · have differs : (other == first) = false := by
        rw [here]
        exact beq_eq_false_iff_ne.mpr away
      rw [List.filter_cons_of_neg (by simp [here]), ih, List.lookup_cons, differs]
    · rw [List.filter_cons_of_pos (by simp [here]), List.lookup_cons, ih, List.lookup_cons]

theorem node?_put_self (named : place ≠ []) (tree : FileTree) (node : FileNode) :
    (tree.put place node).node? place = some node := by
  simp [node?, put, named]

theorem node?_put_other (away : other ≠ place) (tree : FileTree) (node : FileNode) :
    (tree.put place node).node? other = tree.node? other := by
  have differs : (other == place) = false := beq_eq_false_iff_ne.mpr away
  rw [node?, node?, put, List.lookup_cons, differs, lookup_filter_ne away]

theorem textAt_put_self (named : place ≠ []) (tree : FileTree) (content : String) :
    (tree.put place (.file content)).textAt place = some content := by
  rw [textAt, node?_put_self named]

theorem textAt_put_other (away : other ≠ place) (tree : FileTree) (node : FileNode) :
    (tree.put place node).textAt other = tree.textAt other := by
  rw [textAt, node?_put_other away, textAt]

theorem textAt_put_directory (free : tree.node? place = none) (other : Place) :
    (tree.put place .directory).textAt other = tree.textAt other := by
  by_cases here : other = place
  · have named : place ≠ [] := by
      rintro rfl
      simp [node?] at free
    rw [here, textAt, node?_put_self named, textAt, free]
  · exact textAt_put_other here tree .directory

theorem follow_eq {here : Place} (reached : tree.follow path here names = .ok place) :
    place = names.foldl (Path.normalStep true) here := by
  induction names generalizing here with
  | nil => exact (Except.ok.inj reached).symm
  | cons name rest ih =>
    rw [follow] at reached
    split at reached
    · simp only at reached
      split at reached
      · exact ih reached
      · cases reached
    · cases reached

theorem locate_eq (reached : tree.locate path = .ok place) : place = Place.ofPath path :=
  follow_eq reached

theorem textAt_makeFrom {here : Place} (made : makeFrom path tree here names = .ok after)
    (place : Place) : after.textAt place = tree.textAt place := by
  induction names generalizing tree here with
  | nil => rw [← Except.ok.inj made]
  | cons name rest ih =>
    rw [makeFrom] at made
    split at made
    · exact ih made
    · cases made
    · rename_i free
      rw [ih made, textAt_put_directory free]

theorem textAt_makeDirectory (made : tree.makeDirectory path = .ok after) (place : Place) :
    after.textAt place = tree.textAt place :=
  textAt_makeFrom made place

theorem write_eq_put (written : tree.write path content = .ok after) :
    Place.ofPath path ≠ [] ∧ after = tree.put (Place.ofPath path) (.file content) := by
  simp only [write, bind, Except.bind, pure, Except.pure, throw, throwThe,
    MonadExceptOf.throw] at written
  split at written
  · cases written
  · rename_i parent located
    have place : Place.ofPath path = Path.normalStep true parent (Path.splitLast path).2 := by
      rw [locate_eq located]
      exact Place.ofPath_splitLast path
    rw [← place] at written
    split at written
    · cases written
    · split at written
      · cases written
      · rename_i free
        refine ⟨?_, (Except.ok.inj written).symm⟩
        intro root
        exact free (by simp [root, node?])

theorem textAt_write_self (written : tree.write path content = .ok after) :
    after.textAt (Place.ofPath path) = some content := by
  obtain ⟨named, rfl⟩ := write_eq_put written
  exact textAt_put_self named tree content

theorem textAt_write_other (written : tree.write path content = .ok after)
    (away : place ≠ Place.ofPath path) : after.textAt place = tree.textAt place := by
  obtain ⟨-, rfl⟩ := write_eq_put written
  exact textAt_put_other away tree (.file content)

end IdlGen.FileTree
