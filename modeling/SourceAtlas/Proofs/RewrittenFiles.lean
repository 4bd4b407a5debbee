import SourceAtlas.Proofs.WrittenTrees

/-!
# Rewritten files

A file that no language claims may be rewritten without a trace in what discovery finds:
the walk lists it in the same place with other bytes, and then leaves it out.
-/

namespace SourceAtlas.Discovery

variable {keep : List String × ByteArray × Timestamp → Bool} {node old : FileNode}

theorem filter_filesIn_setEntry {names : List String} {name : String}
    {entries : List (String × FileNode)}
    (hentry : FileNode.entry? name (.directory entries) = some old)
    (hsame : (filesOfEntry names name node).filter keep =
      (filesOfEntry names name old).filter keep) :
    (filesIn names (FileNode.setEntry name node entries)).filter keep =
      (filesIn names entries).filter keep := by
  induction entries with
  | nil => simp [FileNode.entry?] at hentry
  | cons entry entries ih =>
      obtain ⟨first, found⟩ := entry
      unfold FileNode.setEntry
      split
      · next heq =>
        subst heq
        rw [FileNode.entry?_cons_self, Option.some.injEq] at hentry
        rw [filesIn_cons, filesIn_cons, List.filter_append, List.filter_append, hsame, hentry]
      · next hne =>
        rw [FileNode.entry?_cons_of_ne hne] at hentry
        rw [filesIn_cons, filesIn_cons, List.filter_append, List.filter_append, ih hentry]

/-- Where a file is not kept, it does not matter what is in it. -/
theorem filter_filesOf_place (keep : List String × ByteArray × Timestamp → Bool)
    {above names : List String} {content : ByteArray}
    {modified : Timestamp} (hfile : node.descend? names = some (.file content modified))
    (hkeep : ∀ bytes lastModified, keep (above ++ names, bytes, lastModified) = false)
    (bytes : ByteArray) (lastModified : Timestamp) :
    (filesOf above (FileNode.place (.file bytes lastModified) names node)).filter keep =
      (filesOf above node).filter keep := by
  induction names generalizing node above with
  | nil =>
      obtain rfl : node = .file content modified := by simpa using hfile
      rw [List.append_nil] at hkeep
      simp [filesOf, hkeep]
  | cons name names ih =>
      rw [FileNode.descend?_cons] at hfile
      obtain ⟨child, hentry, hchild⟩ := Option.bind_eq_some_iff.mp hfile
      cases node with
      | file _ _ => simp at hentry
      | directory entries =>
          rw [FileNode.place_cons, hentry, Option.getD_some, filesOf, filesOf]
          apply filter_filesIn_setEntry hentry
          have hkind : (FileNode.place (.file bytes lastModified) names child).isDirectory =
              child.isDirectory := by
            cases names with
            | nil =>
                obtain rfl : child = .file content modified := by simpa using hchild
                rfl
            | cons next names =>
                cases child with
                | file _ _ => simp [FileNode.descend?_cons] at hchild
                | directory others => rfl
          unfold filesOfEntry
          rw [hkind]
          split
          · rfl
          · exact ih hchild (fun _ _ => by simpa using hkeep _ _)

/-- A file that is no source file below the root may be rewritten. -/
theorem sourceFiles_withNode {tree : FileTree} {root : Path} {place : List String}
    {content : ByteArray} {modified : Timestamp} (hroot : tree.hasPath root = true)
    (hold : tree.root.standing place = .file content modified)
    (hother : ∀ way below, tree.resolve root = .ok way → place = way ++ below →
      languageOf? root below = none) (bytes : ByteArray) (lastModified : Timestamp)
    (patterns : List (List Glob.Token)) :
    sourceFiles patterns (tree.withNode place (.file bytes lastModified)) root =
      sourceFiles patterns tree root := by
  have hfile := FileNode.standing_eq_file_iff.mp hold
  unfold FileTree.hasPath at hroot
  split at hroot
  · next node hnode =>
    obtain ⟨way, hway, hleads⟩ := FileTree.exists_resolve hnode
    have hway' := FileTree.resolve_of_extends
      (FileTree.root_extends_of_file hold bytes lastModified) rfl hway
    by_cases hwithin : way <+: place
    · obtain ⟨below, rfl⟩ := hwithin
      have hnode' := FileTree.node_eq_of_resolve hway'
        (FileNode.descend?_place_append hleads below)
      rw [FileNode.descend?_append, hleads, Option.bind_some] at hfile
      have hunwanted : isWanted patterns root below = false := by
        simp [isWanted, hother way below hway rfl]
      have hsame : (filesOf [] (FileNode.place (.file bytes lastModified) below node)).filter
          (fun file => isWanted patterns root file.1) = (filesOf [] node).filter _ :=
        filter_filesOf_place _ hfile (fun _ _ => hunwanted) bytes lastModified
      rw [sourceFiles_of_node hnode, sourceFiles_of_node hnode', wantedFiles, wantedFiles, hsame]
    · have hbelow : ¬ place <+: way := by
        rintro ⟨more, rfl⟩
        have hne : more ≠ [] := by
          rintro rfl
          exact hwithin (by simp)
        have hdirectory := FileNode.standing_eq_directory_of_append hne (by rw [hleads]; rfl)
        rw [hold] at hdirectory
        contradiction
      have hnode' := FileTree.node_eq_of_resolve hway'
        ((FileNode.descend?_place_eq_of_apart hwithin hbelow).trans hleads)
      rw [sourceFiles_of_node hnode, sourceFiles_of_node hnode']
  · contradiction

end SourceAtlas.Discovery
