import PhxSql.Store.FileShape
import PhxSql.Store.Reading
import PhxSql.Store.Transfer

/-!
# The files that a donor sends

The directory of a donor holds its listed files and perhaps empty ones that a lookup has created
again. `GetFile` takes all of them but the newest, which is the file the donor writes to; the
records in the files it takes are those of the closed files, in order.
-/

set_option autoImplicit false

namespace PhxSql.Store

open PhxSql.Proto PhxSql.Lib PhxSql.Gtid

variable {cx : Codecs}

/-! ## A directory and its listing -/

theorem segmentOf_genFileName (d : Disk) {n : Nat} (hn : n < 2 ^ 64) :
    (segmentOf cx d (genFileName n)).id = n ∧
      (segmentOf cx d (genFileName n)).file = genFileName n := by
  have hid : (segmentOf cx d (genFileName n)).id = n := getFileInstanceID_genFileName hn
  exact ⟨hid, congrArg genFileName hid⟩

/-- A file of the directory holds the records of its segment, also if it is not listed. -/
theorem FilesRep.find?_segmentOf {d : Disk} {fs : FileSet} {segs : List Segment}
    (h : FilesRep cx d fs segs) {f bs : Bytes} (hf : d.find? f = some bs) :
    bs = segmentBytes cx (segmentOf cx d f).records ∧
      ∀ r ∈ (segmentOf cx d f).records, (cx.eventData.serialize r).isSome = true := by
  have hcontent : content d f = bs := by rw [content, hf, Option.getD_some]
  by_cases hlisted : ∃ g ∈ segs, f = g.file
  · obtain ⟨g, hg, rfl⟩ := hlisted
    rw [segmentOf, h.fileRecords_eq hg]
    exact ⟨hcontent.symm.trans (h.content_eq hg), h.serialized g hg⟩
  · have hunlisted : ∀ g ∈ segs, f ≠ g.file := fun g hg heq => hlisted ⟨g, hg, heq⟩
    rw [segmentOf, h.fileRecords_unlisted hunlisted]
    exact ⟨hcontent.symm.trans (h.unlisted f hunlisted), by simp⟩

/-- A list of files of a directory, in order and with nothing else in the directory, is a list of
segments. -/
theorem filesRep_of_names {d : Disk} {fs : FileSet}
    (hnamed : ∀ f bs, d.find? f = some bs → FileName f)
    (hkeys : ∀ f, f ∈ fs.keys ↔ ∃ bs, d.find? f = some bs)
    (hrecords : ∀ f bs, d.find? f = some bs → bs = segmentBytes cx (segmentOf cx d f).records ∧
      ∀ r ∈ (segmentOf cx d f).records, (cx.eventData.serialize r).isSome = true) :
    FilesRep cx d fs (fs.keys.map (segmentOf cx d)) := by
  have hfile : ∀ f ∈ fs.keys, (segmentOf cx d f).file = f ∧
      (segmentOf cx d f).id + 1 = fileRank f ∧ (segmentOf cx d f).id < 2 ^ 64 := by
    intro f hf
    obtain ⟨bs, hbs⟩ := (hkeys f).mp hf
    obtain ⟨n, hn, rfl⟩ := hnamed f bs hbs
    obtain ⟨hid, hname⟩ := @segmentOf_genFileName cx d n hn
    rw [hid, fileRank_genFileName hn]
    exact ⟨hname, rfl, hn⟩
  refine {
    ids := ?ids, small := ?small, serialized := ?serialized, keys := ?keys,
    contents := ?contents, unlisted := ?unlisted, named := hnamed }
  case ids =>
    -- The list is in the order of the numbers in the names.
    rw [List.pairwise_map]
    refine (pairwise_keys fs).imp_of_mem ?_
    intro f f' hf hf' hlt
    have h₁ := (hfile f hf).2.1
    have h₂ := (hfile f' hf').2.1
    omega
  case small =>
    intro g hg
    obtain ⟨f, hf, rfl⟩ := List.mem_map.mp hg
    exact (hfile f hf).2.2
  case serialized =>
    intro g hg
    obtain ⟨f, hf, rfl⟩ := List.mem_map.mp hg
    obtain ⟨bs, hbs⟩ := (hkeys f).mp hf
    exact (hrecords f bs hbs).2
  case keys =>
    have hone : ∀ f ∈ fs.keys, (Segment.file ∘ segmentOf cx d) f = id f := fun f hf =>
      (hfile f hf).1
    rw [List.map_map, List.map_congr_left hone, List.map_id]
  case contents =>
    intro g hg
    obtain ⟨f, hf, rfl⟩ := List.mem_map.mp hg
    obtain ⟨bs, hbs⟩ := (hkeys f).mp hf
    rw [(hfile f hf).1, hbs, (hrecords f bs hbs).1]
  case unlisted =>
    intro f hf
    have hnone : d.find? f = none := by
      rw [Option.eq_none_iff_forall_ne_some]
      intro bs hbs
      have hmem := (hkeys f).mpr ⟨bs, hbs⟩
      exact hf _ (List.mem_map_of_mem hmem) (hfile f hmem).1.symm
    rw [content, hnone]
    rfl

/-! ## The files that arrive -/

theorem find?_sentFiles (d : Disk) (f : Bytes) :
    (sentFiles d).find? f = if f ∈ getFile d then d.find? f else none := by
  have hfind := @SortedMap.find?_filterKeys _ _ _ _ _ d (fun f => decide (f ∈ getFile d)) f
    (fun f' hrank => by rw [byteRank_inj.mp hrank])
  rw [sentFiles, hfind]
  simp only [decide_eq_true_eq]

/-- The listing where the files arrive is the list that was sent. -/
theorem keys_getAllFiles_sentFiles {d : Disk}
    (hnamed : ∀ f bs, d.find? f = some bs → FileName f) :
    (getAllFiles (sentFiles d)).keys = getFile d := by
  have hsent : ∀ f bs, (sentFiles d).find? f = some bs → f ∈ getFile d ∧ d.find? f = some bs := by
    intro f bs hf
    rw [find?_sentFiles] at hf
    split at hf
    · rename_i hmem
      exact ⟨hmem, hf⟩
    · cases hf
  apply SortedMap.keys_eq_of_mem
  · exact (pairwise_keys (getAllFiles d)).sublist (List.dropLast_sublist _)
  · intro f
    rw [mem_getAllFiles fun f bs hf => hnamed f bs (hsent f bs hf).2]
    constructor
    · rintro ⟨bs, hbs⟩
      exact (hsent f bs hbs).1
    · intro hmem
      obtain ⟨bs, hbs⟩ := contains_of_mem_getAllFiles ((List.dropLast_sublist _).subset hmem)
      exact ⟨bs, by rw [find?_sentFiles, if_pos hmem, hbs]⟩

theorem content_sentFiles {d : Disk} {f : Bytes} (hf : f ∈ getFile d) :
    content (sentFiles d) f = content d f := by
  rw [content, find?_sentFiles, if_pos hf, content]

theorem segmentOf_sentFiles {d : Disk} {f : Bytes} (hf : f ∈ getFile d) :
    segmentOf cx (sentFiles d) f = segmentOf cx d f := by
  have hcontent := content_sentFiles hf
  have hrecords : fileRecords cx (sentFiles d) f = fileRecords cx d f := by
    rw [fileRecords, hcontent]
    exact recordsFrom_congr _ rfl hcontent
  rw [segmentOf, hrecords]
  rfl

/-- What arrives is the list of segments that was sent. -/
theorem FilesRep.sent {d : Disk} {fs : FileSet} {segs : List Segment} (h : FilesRep cx d fs segs) :
    FilesRep cx (sentFiles d) (getAllFiles (sentFiles d)) ((getFile d).map (segmentOf cx d)) := by
  have hkeys := keys_getAllFiles_sentFiles h.named
  have hsent : ∀ f bs, (sentFiles d).find? f = some bs → f ∈ getFile d ∧ d.find? f = some bs := by
    intro f bs hf
    have hmem : f ∈ getFile d := by
      rw [find?_sentFiles] at hf
      split at hf
      · assumption
      · cases hf
    rw [find?_sentFiles, if_pos hmem] at hf
    exact ⟨hmem, hf⟩
  have hrep := @filesRep_of_names cx (sentFiles d) (getAllFiles (sentFiles d))
    (fun f bs hf => h.named f bs (hsent f bs hf).2)
    (fun f => mem_getAllFiles fun f bs hf => h.named f bs (hsent f bs hf).2)
    (fun f bs hf => by
      rw [segmentOf_sentFiles (hsent f bs hf).1]
      exact h.find?_segmentOf (hsent f bs hf).2)
  rw [hkeys, List.map_congr_left fun f hf => segmentOf_sentFiles hf] at hrep
  exact hrep

/-! ## The records that are sent -/

/-- Two lists of segments in order that differ in empty segments only have the same rows. -/
theorem flatMap_rows_eq {segs segs' : List Segment} (hids : segs.Pairwise fun g g' => g.id < g'.id)
    (hids' : segs'.Pairwise fun g g' => g.id < g'.id)
    (hmem : ∀ g, g.records ≠ [] → (g ∈ segs ↔ g ∈ segs')) :
    segs.flatMap Segment.rows = segs'.flatMap Segment.rows := by
  have hfilter : ∀ l : List Segment,
      (l.filter fun g => g.records ≠ []).flatMap Segment.rows = l.flatMap Segment.rows := by
    intro l
    induction l with
    | nil => rfl
    | cons g l ih =>
      by_cases hg : g.records = []
      · rw [List.filter_cons_of_neg (by simpa using hg), List.flatMap_cons, ih, Segment.rows, hg,
          List.map_nil, List.nil_append]
      · rw [List.filter_cons_of_pos (by simpa using hg), List.flatMap_cons, List.flatMap_cons, ih]
  have hnodup : ∀ {l : List Segment}, l.Pairwise (fun g g' => g.id < g'.id) → l.Nodup := by
    intro l hl
    refine hl.imp fun hlt heq => ?_
    rw [heq] at hlt
    exact Nat.lt_irrefl _ hlt
  -- Without the empty ones both lists are in order and have the same members.
  have hsame : (segs.filter fun g => g.records ≠ []) = segs'.filter fun g => g.records ≠ [] := by
    have hs := hids.sublist (List.filter_sublist (p := fun g => decide (g.records ≠ [])))
    have hs' := hids'.sublist (List.filter_sublist (p := fun g => decide (g.records ≠ [])))
    have hperm := (List.perm_ext_iff_of_nodup (hnodup hs) (hnodup hs')).mpr fun g => by
      simp only [List.mem_filter, decide_eq_true_eq]
      exact ⟨fun h => ⟨(hmem g h.2).mp h.1, h.2⟩, fun h => ⟨(hmem g h.2).mpr h.1, h.2⟩⟩
    exact hperm.eq_of_pairwise (fun a b _ _ hab hba => absurd hab (Nat.lt_asymm hba)) hs hs'
  rw [← hfilter segs, ← hfilter segs', hsame]

/-- The files that are sent are those of the directory but the one that is written to. -/
theorem DonorInv.keys_eq {h : History} {init : List Segment} {g : Segment}
    (hd : DonorInv cx h (init ++ [g])) :
    (getAllFiles h.store.disk).keys = getFile h.store.disk ++ [g.file] := by
  have hfiles := hd.inv.rep.files
  have hg : g ∈ init ++ [g] := by simp
  have hmem : g.file ∈ (getAllFiles h.store.disk).keys :=
    (mem_getAllFiles hfiles.named).mpr ⟨_, hfiles.contents g hg⟩
  have hne : (getAllFiles h.store.disk).keys ≠ [] := List.ne_nil_of_mem hmem
  have hsplit := List.dropLast_append_getLast hne
  -- The last file of the listing is known, so that it is not newer than the one that is written to.
  have hlast : (getAllFiles h.store.disk).keys.getLast hne = g.file := by
    obtain ⟨bs, hbs⟩ := contains_of_mem_getAllFiles (List.getLast_mem hne)
    obtain ⟨n, hn, g', hg', hle⟩ := hd.known _ bs hbs
    have hle' := hfiles.le_getLast? List.getLast?_concat hg'
    have hsmall := hfiles.small g hg
    rw [← hsplit] at hmem
    rcases List.mem_append.mp hmem with hmem | hmem
    · have hlt := (List.pairwise_append.mp (hsplit.symm ▸ pairwise_keys (getAllFiles h.store.disk))).2.2
        g.file hmem _ (List.mem_singleton_self _)
      rw [hn, fileRank_genFileName (by omega), fileRank_file hfiles hg] at hlt
      omega
    · exact (List.mem_singleton.mp hmem).symm
  rw [getFile, ← hlast]
  exact hsplit.symm

/-- The rows of the files that are sent are those of the closed files. -/
theorem DonorInv.rows_sent {h : History} {init : List Segment} {g : Segment}
    (hd : DonorInv cx h (init ++ [g])) :
    ((getFile h.store.disk).map (segmentOf cx h.store.disk)).flatMap Segment.rows =
      init.flatMap Segment.rows := by
  have hfiles := hd.inv.rep.files
  have hkeys := hd.keys_eq
  apply flatMap_rows_eq hfiles.sent.ids (List.pairwise_append.mp hfiles.ids).1
  intro g' hrecords
  have hsegment : ∀ a ∈ init ++ [g], segmentOf cx h.store.disk a.file = a := by
    intro a ha
    have hid : getFileInstanceID a.file = a.id := getFileInstanceID_genFileName (hfiles.small a ha)
    rw [segmentOf, hfiles.fileRecords_eq ha, hid]
  constructor
  · intro hg'
    obtain ⟨f, hf, rfl⟩ := List.mem_map.mp hg'
    -- A file with records is listed, and the last one is not sent.
    by_cases hlisted : ∃ a ∈ init ++ [g], f = a.file
    · obtain ⟨a, ha, rfl⟩ := hlisted
      rw [hsegment a ha]
      rcases List.mem_append.mp ha with ha | ha
      · exact ha
      · rw [List.mem_singleton.mp ha] at hf
        have hsorted := pairwise_keys (getAllFiles h.store.disk)
        rw [hkeys] at hsorted
        exact absurd ((List.pairwise_append.mp hsorted).2.2 g.file hf g.file
          (List.mem_singleton_self _)) (Nat.lt_irrefl _)
    · exact absurd (hfiles.fileRecords_unlisted fun a ha heq => hlisted ⟨a, ha, heq⟩) hrecords
  · intro hg'
    have hmem : g'.file ∈ (getAllFiles h.store.disk).keys :=
      (mem_getAllFiles hfiles.named).mpr ⟨_, hfiles.contents g' (by simp [hg'])⟩
    rw [hkeys] at hmem
    rcases List.mem_append.mp hmem with hmem | hmem
    · exact List.mem_map.mpr ⟨g'.file, hmem, hsegment g' (by simp [hg'])⟩
    · exact absurd (List.mem_singleton.mp hmem) (hfiles.file_ne_last hg')

end PhxSql.Store
