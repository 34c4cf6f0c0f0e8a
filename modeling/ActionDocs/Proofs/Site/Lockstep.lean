import ActionDocs.Proofs.Site.Cleaning

/-!
# Two runs in lockstep

A run cannot tell two disks apart that look alike. On both of them it takes the same steps, gives
the same result or stops for the same reason, and the disks look alike again afterwards.

- `Run.Parallel`: two outcomes that are the same but for the order in which the disks list things.
- `Run.Lockstep`: two runs that have parallel outcomes from any disks that look alike.
- `Run.Lockstep.bind`: it is enough to look at the single steps.
- `Run.lockstep_makeDirs`, `Run.lockstep_writePage`: the changes in several steps.
- `Run.lockstep_prepare`, `Run.lockstep_collect`, `Run.lockstep_carryOut`: the parts of a run.
- `Run.lockstep_generate`: a whole run.
- `Run.prepare_agreeOutside`: removing the output directory makes two disks look alike that agree
  outside it.
- `Run.generate_clean_forgets`: so what was in it does not matter.
-/

namespace ActionDocs

open Text

/-- On disks that look alike the same source files are found. -/
theorem Disk.Alike.sourcesIn_eq {d d' : Disk} (h : d.Alike d') (source : Path) (extension : Text)
    (excluded : Option Location) :
    d'.sourcesIn source extension excluded = d.sourcesIn source extension excluded := by
  have hentries := h.entries source
  unfold sourcesIn
  generalize d.entries source = entries, d'.entries source = entries' at hentries ⊢
  cases hentries with
  | error cause => rfl
  | ok halike =>
    dsimp only
    rw [halike.sorted_eq, h.cwd]

namespace Run

variable {α β γ δ : Type} {r : α → β → Prop} {s : γ → δ → Prop}

/-- Two outcomes with related results, or with the same failure, on disks that look alike. -/
inductive Parallel (r : α → β → Prop) :
    EStateM.Result Failure World α → EStateM.Result Failure World β → Prop where
  | ok {a : α} {b : β} {w w' : World} (h : r a b) (hdisks : w.disk.Alike w'.disk) :
    Parallel r (.ok a w) (.ok b w')
  | error (e : Failure) {w w' : World} (hdisks : w.disk.Alike w'.disk) :
    Parallel r (.error e w) (.error e w')

/-- Two runs that have parallel outcomes from any disks that look alike. -/
def Lockstep (r : α → β → Prop) (x : Run α) (y : Run β) : Prop :=
  ∀ w w', w.disk.Alike w'.disk → Parallel r (x w) (y w')

/-! ## Single steps -/

theorem Lockstep.bind {x : Run α} {y : Run β} {f : α → Run γ} {g : β → Run δ}
    (hxy : Lockstep r x y) (hfg : ∀ a b, r a b → Lockstep s (f a) (g b)) :
    Lockstep s (x >>= f) (y >>= g) := by
  intro w w' hw
  show Parallel s (EStateM.bind x f w) (EStateM.bind y g w')
  unfold EStateM.bind
  have hfirst := hxy w w' hw
  generalize x w = first, y w' = first' at hfirst ⊢
  cases hfirst with
  | ok hab hdisks => exact hfg _ _ hab _ _ hdisks
  | error e hdisks => exact .error e hdisks

theorem lockstep_pure {a : α} {b : β} (h : r a b) : Lockstep r (pure a) (pure b) :=
  fun _ _ hw => .ok h hw

theorem lockstep_throw (e : Failure) : Lockstep r (throw e : Run α) (throw e : Run β) :=
  fun _ _ hw => .error e hw

theorem lockstep_disk : Lockstep Disk.Alike Run.disk Run.disk :=
  fun _ _ hw => .ok hw hw

theorem lockstep_orRefused {x : Except FileError α} {y : Except FileError β} (h : Agrees r x y) :
    Lockstep r (orRefused x) (orRefused y) := by
  cases h with
  | ok hab => exact lockstep_pure hab
  | error cause => exact lockstep_throw _

theorem lockstep_setDisk {d d' : Disk} (h : d.Alike d') :
    Lockstep Eq (modify fun w => { w with disk := d } : Run Unit)
      (modify fun w => { w with disk := d' } : Run Unit) :=
  fun _ _ _ => .ok rfl h

theorem lockstep_notes (log log' : Log) : Lockstep Eq (notes log) (notes log') :=
  fun _ _ hw => .ok rfl hw

theorem lockstep_change {f : Disk → Except FileError Disk}
    (hf : ∀ d d', d.Alike d' → Agrees Disk.Alike (f d) (f d')) :
    Lockstep Eq (change f) (change f) := by
  refine lockstep_disk.bind fun d d' hd => ?_
  exact (lockstep_orRefused (hf d d' hd)).bind fun _ _ hchanged => lockstep_setDisk hchanged

/-! ## Changes in several steps -/

theorem lockstep_ensureDir (p : Path) : Lockstep Eq (ensureDir p) (ensureDir p) := by
  refine lockstep_disk.bind fun d d' hd => ?_
  have hmake := hd.makeDir p
  generalize d.makeDir p = made, d'.makeDir p = made' at hmake ⊢
  cases hmake with
  | ok hmade => exact lockstep_setDisk hmade
  | error cause =>
    have hrest : Lockstep Eq
        (do if ← orRefused (d.isDir p) then return () else throw (.refused cause) : Run Unit)
        (do if ← orRefused (d'.isDir p) then return () else throw (.refused cause) : Run Unit) := by
      rw [hd.isDir_eq]
      refine (lockstep_orRefused (agrees_eq _)).bind ?_
      rintro found _ rfl
      cases found with
      | false => exact lockstep_throw _
      | true => exact lockstep_pure rfl
    cases cause
    case notFound => exact lockstep_throw _
    all_goals exact hrest

theorem lockstep_makeDirsFrom (anchor : Anchor) (levels : Nat) (names : List Text) :
    Lockstep Eq (makeDirsFrom anchor levels names) (makeDirsFrom anchor levels names) := by
  induction levels generalizing names with
  | zero => exact lockstep_throw _
  | succ levels ih =>
    cases names with
    | nil => exact lockstep_ensureDir _
    | cons name above =>
      have hlast := lockstep_ensureDir ⟨anchor, (name :: above).reverse⟩
      rw [makeDirsFrom]
      refine lockstep_disk.bind fun d d' hd => ?_
      have hmake := hd.makeDir ⟨anchor, (name :: above).reverse⟩
      generalize d.makeDir ⟨anchor, (name :: above).reverse⟩ = made,
        d'.makeDir ⟨anchor, (name :: above).reverse⟩ = made' at hmake ⊢
      cases hmake with
      | ok _ => exact hlast
      | error cause =>
        cases cause
        case notFound => exact (ih above).bind fun _ _ _ => hlast
        all_goals exact hlast

theorem lockstep_makeDirs (p : Path) : Lockstep Eq (makeDirs p) (makeDirs p) :=
  lockstep_makeDirsFrom _ _ _

theorem lockstep_writePage (p : Path) (page : Text) :
    Lockstep Eq (writePage p page) (writePage p page) :=
  (lockstep_makeDirs _).bind fun _ _ _ => lockstep_change fun _ _ hd => hd.write p _

/-! ## The parts of a run -/

theorem lockstep_collect (request : Request) : Lockstep Eq (collect request) (collect request) := by
  have hdiscover : Lockstep Eq (discover request) (discover request) := by
    refine lockstep_disk.bind fun d d' hd => ?_
    rw [hd.resolve_eq, hd.resolve_eq]
    refine (lockstep_orRefused (agrees_eq _)).bind ?_
    rintro docs _ rfl
    refine (lockstep_orRefused (agrees_eq _)).bind ?_
    rintro top _ rfl
    rw [hd.sourcesIn_eq]
    exact lockstep_pure rfl
  refine hdiscover.bind ?_
  rintro ⟨top, files⟩ _ rfl
  have hread : Lockstep Eq (readAll request.source files) (readAll request.source files) := by
    unfold readAll
    cases files.mapM (readSource request.source) with
    | error failure => exact lockstep_throw _
    | ok sources => exact lockstep_pure rfl
  refine hread.bind ?_
  rintro sources _ rfl
  exact lockstep_pure rfl

theorem lockstep_publishAll (pages : List Page) :
    Lockstep Eq (publishAll pages) (publishAll pages) := by
  induction pages with
  | nil => exact lockstep_pure rfl
  | cons page pages ih =>
    have hpublish : Lockstep Eq (publish page) (publish page) := by
      refine (lockstep_notes _ _).bind fun _ _ _ => ?_
      exact (lockstep_writePage _ _).bind fun _ _ _ => lockstep_notes _ _
    exact hpublish.bind fun _ _ _ => ih

/-- The table of contents is made from the entries in the order of their names, so it is the same
however the disks list them. -/
theorem lockstep_writeToc (docs : Path) : Lockstep Eq (writeToc docs) (writeToc docs) := by
  refine lockstep_disk.bind fun d d' hd => ?_
  refine (lockstep_orRefused (hd.entries docs)).bind fun entries entries' halike => ?_
  have hfit : allFit docs entries' = allFit docs entries := by
    rw [Bool.eq_iff_iff, allFit_iff halike.left, allFit_iff halike.right]
    simp only [halike.seen]
  have hsorted : Node.sortedEntries entries' = Node.sortedEntries entries := by
    have hnodes := halike.sorted_eq
    rw [Node.sorted, Node.sorted] at hnodes
    exact Node.dir.inj hnodes
  rw [hfit, hsorted]
  cases allFit docs entries with
  | false => exact fun _ _ hw => .error _ hw
  | true =>
    refine (lockstep_change fun _ _ hd => hd.write _ _).bind fun _ _ _ => ?_
    exact (lockstep_notes _ _).bind fun _ _ _ => lockstep_pure rfl

theorem lockstep_carryOut (docs : Path) (plan : Plan) :
    Lockstep Eq (carryOut docs plan) (carryOut docs plan) := by
  refine (lockstep_publishAll _).bind fun _ _ _ => (lockstep_writeToc docs).bind ?_
  rintro toc _ rfl
  exact lockstep_pure rfl

/-! ## Cleaning the output directory -/

/-- No path leads through anything in the output directory. -/
structure AvoidsStale (request : Request) (d : Disk) : Prop where
  source : ∀ l ∈ request.source.way d.cwd.place, request.docsPlace d <+: l → l = request.docsPlace d
  docs : ∀ l ∈ request.docs.way d.cwd.place, request.docsPlace d <+: l → l = request.docsPlace d

/-- Two outcomes that are the same: the same failure, or the same report and disks that look
alike. -/
inductive SameOutcome : EStateM.Result Failure World Report → EStateM.Result Failure World Report →
    Prop where
  | ok (report : Report) {w w' : World} (hdisks : w.disk.Alike w'.disk) :
    SameOutcome (.ok report w) (.ok report w')
  | error (e : Failure) {w w' : World} : SameOutcome (.error e w) (.error e w')

/-- Once the directory could be emptied, removing it goes on from the disk on which it is empty. -/
theorem removeTree_bind {p : Path} {f : Unit → Run α} {w : World} {d : Disk}
    (h : w.disk.clear p = .ok d) :
    (removeTree p >>= f) w = (change (·.removeDir p) >>= f) { w with disk := d } := by
  have hclear : change (·.clear p) w = .ok () { w with disk := d } := change_eq_ok.2 ⟨d, h, rfl⟩
  show EStateM.bind (EStateM.bind (change (·.clear p)) fun _ => change (·.removeDir p)) f w =
    EStateM.bind (change (·.removeDir p)) f { w with disk := d }
  unfold EStateM.bind
  rw [hclear]

/-- Making room by removing the output directory ends in the same failure on both disks, or goes on
from two disks that look alike. -/
theorem prepare_agreeOutside {request : Request} {w w' : World} (hclean : request.clean = true)
    (hagree : Disk.AgreeOutside (request.docsPlace w.disk) w.disk w'.disk)
    (havoids : AvoidsStale request w.disk) (hdocs : w.disk.isDir request.docs = .ok true) :
    (∃ e, prepare request w = .error e w ∧ prepare request w' = .error e w') ∨
    ∃ d d', d.Alike d' ∧
      prepare request w =
        (change (·.removeDir request.docs) >>= fun _ => makeDirs request.docs)
          { w with disk := d } ∧
      prepare request w' =
        (change (·.removeDir request.docs) >>= fun _ => makeDirs request.docs)
          { w' with disk := d' } := by
  have hsource : w'.disk.isDir request.source = w.disk.isDir request.source :=
    Disk.isDir_eq_of_seen hagree.cwd fun l hl => hagree.seen_eq (havoids.source l hl)
  have hdocs' : w'.disk.isDir request.docs = .ok true := by
    rw [← hdocs]
    exact Disk.isDir_eq_of_seen hagree.cwd fun l hl => hagree.seen_eq (havoids.docs l hl)
  have hresolve : ∀ p, w'.disk.resolve p = w.disk.resolve p := by
    intro p
    unfold Disk.resolve
    rw [hagree.cwd]
  unfold prepare
  rw [disk_bind, disk_bind, hsource, hresolve, hresolve, hclean]
  simp only [if_true, Disk.exists_of_isDir hdocs, Disk.exists_of_isDir hdocs']
  cases w.disk.isDir request.source with
  | error cause => exact .inl ⟨_, orRefused_error_bind _ _ _, orRefused_error_bind _ _ _⟩
  | ok found =>
    cases found with
    | false => exact .inl ⟨_, rfl, rfl⟩
    | true =>
      cases w.disk.resolve request.source with
      | error cause => exact .inl ⟨.refused cause, rfl, rfl⟩
      | ok source =>
        cases hplace : w.disk.resolve request.docs with
        | error cause => exact .inl ⟨.refused cause, rfl, rfl⟩
        | ok docs =>
          by_cases hinside : docs <+: source
          · refine .inl ⟨.unsafeClean request.docs, ?_, ?_⟩
            · simp [orRefused_ok_bind, throw_bind, hinside]
            · simp [orRefused_ok_bind, throw_bind, hinside]
          · obtain ⟨d, d', hclear, hclear', halike⟩ :=
              hagree.clear (Disk.stands_of_resolve hplace) hdocs hdocs'
            refine .inr ⟨d, d', halike, ?_, ?_⟩
            · rw [← removeTree_bind hclear]
              simp [orRefused_ok_bind, hinside]
            · rw [← removeTree_bind hclear']
              simp [orRefused_ok_bind, hinside]

/-- What a run does once room was made. -/
def document (request : Request) : Run Report := do
  let (top, sources) ← collect request
  noteCounts (Plan.of request top sources)
  carryOut request.docs (Plan.of request top sources)

theorem generate_eq (request : Request) :
    generate request = (prepare request >>= fun _ => document request) := rfl

theorem lockstep_document (request : Request) :
    Lockstep Eq (document request) (document request) := by
  refine (lockstep_collect request).bind ?_
  rintro ⟨top, sources⟩ _ rfl
  exact (lockstep_notes _ _).bind fun _ _ _ => lockstep_carryOut _ _

theorem bind_of_eq {x y : Run α} {f : α → Run γ} {w w₁ : World} (h : x w = y w₁) :
    (x >>= f) w = (y >>= f) w₁ := by
  show EStateM.bind x f w = EStateM.bind y f w₁
  unfold EStateM.bind
  rw [h]

theorem bind_of_eq_error {x : Run α} {f : α → Run γ} {w w₁ : World} {e : Failure}
    (h : x w = .error e w₁) : (x >>= f) w = .error e w₁ := by
  show EStateM.bind x f w = _
  unfold EStateM.bind
  rw [h]

theorem sameOutcome_of_avoidsStale {request : Request} {w w' : World}
    (hclean : request.clean = true)
    (hagree : Disk.AgreeOutside (request.docsPlace w.disk) w.disk w'.disk)
    (havoids : AvoidsStale request w.disk) (hdocs : w.disk.isDir request.docs = .ok true) :
    SameOutcome (generate request w) (generate request w') := by
  rw [generate_eq]
  rcases prepare_agreeOutside hclean hagree havoids hdocs with
    ⟨e, herror, herror'⟩ | ⟨d, d', halike, hrun, hrun'⟩
  · rw [bind_of_eq_error herror, bind_of_eq_error herror']
    exact .error e
  · have hrest : Lockstep Eq
        ((change (·.removeDir request.docs) >>= fun _ => makeDirs request.docs) >>=
          fun _ => document request)
        ((change (·.removeDir request.docs) >>= fun _ => makeDirs request.docs) >>=
          fun _ => document request) := by
      refine Lockstep.bind (r := Eq) ?_ fun _ _ _ => lockstep_document request
      exact (lockstep_change fun _ _ hd => hd.removeDir _).bind fun _ _ _ => lockstep_makeDirs _
    have houtcome := hrest { w with disk := d } { w' with disk := d' } halike
    rw [bind_of_eq hrun, bind_of_eq hrun']
    generalize ((change (·.removeDir request.docs) >>= fun _ => makeDirs request.docs) >>=
      fun _ => document request) { w with disk := d } = outcome at houtcome ⊢
    generalize ((change (·.removeDir request.docs) >>= fun _ => makeDirs request.docs) >>=
      fun _ => document request) { w' with disk := d' } = outcome' at houtcome ⊢
    cases houtcome with
    | ok hreport hdisks =>
      subst hreport
      exact .ok _ hdisks
    | error e _ => exact .error e

/-- **What was in the output directory does not matter** to a run that removes it first. On any two
disks that agree on everything outside the output directory, such a run fails in the same way or
succeeds with the same report, and in the end the same is found at every location of the two disks.
The sources must not lie in the output directory, and no path may lead up. -/
theorem generate_clean_forgets {request : Request} {w w' : World} (hclean : request.clean = true)
    (hagree : Disk.AgreeOutside (request.docsPlace w.disk) w.disk w'.disk)
    (hdocs : w.disk.isDir request.docs = .ok true) (hsource : parentName ∉ request.source.parts)
    (hplain : parentName ∉ request.docs.parts)
    (hinside : request.docsPlace w.disk <+: request.sourcePlace w.disk →
      request.sourcePlace w.disk = request.docsPlace w.disk) :
    SameOutcome (generate request w) (generate request w') := by
  refine sameOutcome_of_avoidsStale hclean hagree ⟨fun l hl hpre => ?_, fun l hl hpre => ?_⟩ hdocs
  · have hfront : l <+: request.sourcePlace w.disk := Path.prefix_of_mem_way hsource hl
    have hplace := hinside (hpre.trans hfront)
    rw [hplace] at hfront
    exact (hfront.eq_of_length_le hpre.length_le)
  · have hfront : l <+: request.docsPlace w.disk := Path.prefix_of_mem_way hplain hl
    exact (hfront.eq_of_length_le hpre.length_le)

/-- A source file beside an output directory with something in it from earlier. -/
def clutteredDisk (stale : Entries) : Disk where
  root := .dir [("s", .dir [("a.js", .file (encode "/** run */ (function()")),
    ("docs", .dir stale)])]
  cwd := ⟨[], 0⟩

/-- A request that removes the output directory inside the sources. -/
def clutteredRequest : Request where
  source := ⟨.here, ["s"]⟩
  docs := ⟨.here, ["s", "docs"]⟩
  extension := ".js"
  sourceRoot := "s"
  language := "js"
  clean := true

/-- A source file, and a directory where the page goes. -/
def obstacles : Entries :=
  [("b.js", .file (encode "/** b */ (function()")), ("s.md", .dir [])]

/-- Neither a stale source file nor a directory in the way of the page has any effect. -/
theorem obstacles_forgotten :
    ∃ report after after', generate clutteredRequest { disk := clutteredDisk [] } =
        .ok report after ∧
      generate clutteredRequest { disk := clutteredDisk obstacles } = .ok report after' ∧
      report.written = [⟨.here, ["s", "docs", "s.md"]⟩] ∧ after.disk.Alike after'.disk := by
  have hok : succeedsWith (generate clutteredRequest) { disk := clutteredDisk [] }
      (fun report => report.written == [⟨.here, ["s", "docs", "s.md"]⟩]) = true := by
    decide +kernel
  obtain ⟨report, after, hrun, hwritten⟩ := exists_of_succeedsWith hok
  have hwf : (clutteredDisk []).root.WellFormed := by decide
  have hstale : (Node.dir obstacles).WellFormed := by decide
  have hagree : Disk.AgreeOutside (clutteredRequest.docsPlace (clutteredDisk []))
      (clutteredDisk []) (clutteredDisk obstacles) :=
    Disk.agreeOutside_of_filled hwf ⟨[], rfl⟩ hstale
  have hsame : SameOutcome (generate clutteredRequest { disk := clutteredDisk [] })
      (generate clutteredRequest { disk := clutteredDisk obstacles }) :=
    generate_clean_forgets rfl hagree rfl (by decide) (by decide) (by decide)
  rw [hrun] at hsame
  generalize hrun' : generate clutteredRequest { disk := clutteredDisk obstacles } = outcome
    at hsame
  cases hsame with
  | ok _ halike => exact ⟨report, after, _, hrun, rfl, eq_of_beq hwritten, halike⟩

end Run

end ActionDocs
