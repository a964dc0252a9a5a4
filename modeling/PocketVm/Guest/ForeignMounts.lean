import Mathlib.Algebra.Order.BigOperators.Group.List
import PocketVm.Guest.Volumes

/-!
# Unmounting what the workload mounted

`unmount_foreign_mounts_beneath` reads `/proc/self/mountinfo` and unmounts every mount point it
finds beneath the workload's root, the longest paths first. The kernel prints a path with its blanks
and backslashes as octal escapes; the text is passed to `umount2` as it was printed.
-/

namespace PocketVm.Guest

open Wire Checked List

/-! ### The table as the kernel prints it -/

def isEscaped (b : UInt8) : Bool := b == 32 || b == 9 || b == 10 || b == 92

def escapeByte (b : UInt8) : Bytes :=
  if isEscaped b then [92, 48 + b / 64, 48 + b / 8 % 8, 48 + b % 8] else [b]

def escape (path : Bytes) : Bytes := path.flatMap escapeByte

/-- One mount: the four fields before its mount point, the mount point as it is, and the fields
after it. -/
structure MountLine where
  before : List Bytes
  point : Bytes
  after : List Bytes
  before_length : before.length = 4
  after_ne : after ≠ []
  /-- nothing in the other fields separates fields or lines -/
  plain : ∀ field ∈ before ++ after, 32 ∉ field ∧ 10 ∉ field

def MountLine.text (line : MountLine) :
    Bytes := [32].intercalate (line.before ++ escape line.point :: line.after)

def printTable (lines : List MountLine) : Bytes := lines.flatMap fun line => line.text ++ [10]

/-! ### Reading it -/

/-- A line feed is the end of a line, with a carriage return before it. -/
def stripReturn (line : Bytes) : Bytes := if line.getLast? = some 13 then line.dropLast else line

/-- `str::lines`. -/
def textLines (text : Bytes) : List Bytes :=
  let pieces := text.splitOn 10
  pieces.dropLast.map stripReturn ++ if pieces.getLastD [] = [] then [] else [pieces.getLastD []]

/-- `split(' ').nth(4)`. -/
def mountPoint (line : Bytes) : Option Bytes := (line.splitOn 32)[4]?

/-- `path` lies strictly below `root`, by their texts. -/
def isBelow (root path : Bytes) : Bool := (root ++ [47]).isPrefixOf path

def foundMounts (root table : Bytes) :
    List Bytes := ((textLines table).filterMap mountPoint).filter (isBelow root)

inductive CleanupError where
  | contract (stage diagnostic : String)
  | child (stage : String) (errno : Nat)
  deriving DecidableEq

def readBoundedText (path : String) (maximum : Nat) (stage : String) (file : Bytes) :
    Except CleanupError Bytes := do
  stop (maximum < file.length) (.contract stage (path ++ " exceeds the " ++ toString maximum ++
    "-byte hard cap"))
  stop (String.fromUTF8? ⟨file.toArray⟩).isNone (.contract stage (path ++ " is not valid UTF-8"))
  return file

/-! ### Unmounting -/

def EINVAL : Nat := 22
def MOUNTINFO_BYTES : Nat := 1024 * 1024

/-- Two failures mean that there is no mount at the path. -/
def tolerated : Option Nat → Bool
  | none => true
  | some errno => errno == EINVAL || errno == ENOENT

/-- `sort_unstable_by_key`, by falling length: equal keys may come in any order. -/
structure LengthSort where
  sort : List Bytes → List Bytes
  perm : ∀ points, (sort points).Perm points
  sorted : ∀ points, (sort points).Pairwise fun first second => second.length ≤ first.length

/-- The loop: the paths that `umount2` is called with, and how it ends. The kernel answers call
after call. -/
def unmountAll (answer : Nat → Option Nat) : Nat → List Bytes →
    List Bytes × Except CleanupError Unit
  | _, [] => ([], .ok ())
  | call, point :: rest =>
    if tolerated (answer call) then
      (point :: (unmountAll answer (call + 1) rest).1, (unmountAll answer (call + 1) rest).2)
    else ([point], .error (.child "namespace-unmount" ((answer call).getD 0)))

def unmountForeignMountsBeneath (order : LengthSort) (answer : Nat → Option Nat)
    (root table : Bytes) :
    List Bytes × Except CleanupError Unit :=
  match readBoundedText "/proc/self/mountinfo" MOUNTINFO_BYTES "namespace-unmount" table with
  | .error e => ([], .error e)
  | .ok text => unmountAll answer 0 (order.sort (foundMounts root text))

/-! ### Escapes -/

section

variable {root path : Bytes}

theorem length_escape (path : Bytes) :
    (escape path).length = path.length + 3 * path.countP isEscaped := by
  induction path with
  | nil => rfl
  | cons b path ih =>
    rw [escape, flatMap_cons, length_append, ← escape, escapeByte, countP_cons]
    split
    · simp only [length_cons, length_nil]
      omega
    · simp only [length_cons, length_nil]
      omega

theorem escape_eq_self : escape path = path ↔ ∀ b ∈ path, isEscaped b = false := by
  constructor
  · intro h
    have hlength := congrArg List.length h
    rw [length_escape] at hlength
    have hcount : path.countP isEscaped = 0 := by omega
    intro b hb
    have := countP_eq_zero.mp hcount b hb
    simpa using this
  · intro h
    induction path with
    | nil => rfl
    | cons b path ih =>
      rw [escape, flatMap_cons, ← escape, ih fun c hc => h c (mem_cons_of_mem _ hc), escapeByte,
        if_neg (by simp [h b mem_cons_self])]
      rfl

theorem mem_escape {b : UInt8} (h : b ∈ escape path) : b ≠ 32 ∧ b ≠ 10 := by
  have hbyte : ∀ c : UInt8, isEscaped c = true →
    ∀ d ∈ [92, 48 + c / 64, 48 + c / 8 % 8, 48 + c % 8], d ≠ 32 ∧ d ≠ 10 := by
    intro c hc
    simp only [isEscaped, Bool.or_eq_true, beq_iff_eq] at hc
    rcases hc with ((rfl | rfl) | rfl) | rfl <;> decide +kernel
  obtain ⟨c, -, hc⟩ := mem_flatMap.mp h
  rw [escapeByte] at hc
  split at hc
  · next hescaped => exact hbyte c hescaped b hc
  · next hplain =>
    obtain rfl := mem_singleton.mp hc
    simp only [isEscaped, Bool.or_eq_true, beq_iff_eq, not_or] at hplain
    exact ⟨hplain.1.1.1, hplain.1.2⟩

theorem isPrefixOf_escape {front : Bytes} (hfront : ∀ b ∈ front, isEscaped b = false) :
    front.isPrefixOf (escape path) = front.isPrefixOf path := by
  induction front generalizing path with
  | nil => simp
  | cons b front ih =>
    have hb := hfront b mem_cons_self
    cases path with
    | nil => rfl
    | cons c path =>
      rw [escape, flatMap_cons, ← escape, escapeByte]
      split
      · next hc =>
        have hbc : (b == c) = false := by
          refine beq_false_of_ne ?_
          rintro rfl
          rw [hb] at hc
          cases hc
        have hslash : (b == 92) = false := by
          refine beq_false_of_ne ?_
          rintro rfl
          exact absurd hb (by decide)
        simp only [cons_append, isPrefixOf_cons_cons, hbc, hslash, Bool.false_and]
      · simp only [singleton_append, isPrefixOf_cons_cons]
        rw [ih fun d hd => hfront d (mem_cons_of_mem _ hd)]

/-! ### What is read back -/

theorem intercalate_append {sep : UInt8} {first second : List Bytes} (hfirst : first ≠ [])
    (hsecond : second ≠ []) :
    [sep].intercalate (first ++ second) = [sep].intercalate first ++
      sep :: [sep].intercalate second := by
  induction first with
  | nil => exact absurd rfl hfirst
  | cons field first ih =>
    cases first with
    | nil => rw [singleton_append, intercalate_cons_of_ne_nil hsecond]; simp
    | cons field' first =>
      rw [cons_append, intercalate_cons_of_ne_nil (by simp), ih (cons_ne_nil _ _)]
      simp

theorem stripReturn_append {front rest : Bytes} :
    stripReturn (front ++ 32 :: rest) = front ++ 32 :: stripReturn rest := by
  have hlast : (front ++ 32 :: rest).getLast? = some 13 ↔ rest.getLast? = some 13 := by
    cases rest with
    | nil => simp
    | cons b rest => simp [getLast?_eq_some_getLast (cons_ne_nil b rest)]
  unfold stripReturn
  by_cases hreturn : rest.getLast? = some 13
  · have hne : rest ≠ [] := by
      rintro rfl
      cases hreturn
    rw [if_pos (hlast.mpr hreturn), if_pos hreturn, dropLast_append_of_ne_nil (cons_ne_nil _ _),
      dropLast_cons_of_ne_nil hne]
  · rw [if_neg (mt hlast.mp hreturn), if_neg hreturn]

theorem mountPoint_text (line : MountLine) :
    mountPoint (stripReturn line.text) = some (escape line.point) := by
  have hne : line.before ++ [escape line.point] ≠ [] := by simp
  have htext : line.text = [32].intercalate (line.before ++ [escape line.point]) ++
    32 :: [32].intercalate line.after := by
    rw [MountLine.text, ← intercalate_append hne line.after_ne, append_assoc, singleton_append]
  have hfields : ([32].intercalate (line.before ++ [escape line.point])).splitOn 32 = line.before ++
    [escape line.point] := by
    refine splitOn_intercalate 32 (fun field hfield => ?_) hne
    rcases mem_append.mp hfield with hfield | hfield
    · exact (line.plain field (mem_append_left _ hfield)).1
    · obtain rfl := mem_singleton.mp hfield
      exact fun h => (mem_escape h).1 rfl
  rw [mountPoint, htext, stripReturn_append, List.splitOn, splitOnP_append_cons _ _ (by decide),
    ← List.splitOn, hfields, append_assoc, getElem?_append_right (by rw [line.before_length]),
      line.before_length]
  rfl

theorem newline_not_mem_text (line : MountLine) : 10 ∉ line.text := by
  intro h
  rcases mem_intercalate h with h | ⟨field, hfield, h⟩
  · exact absurd h (by decide)
  · rcases mem_append.mp hfield with hfield | hfield
    · exact (line.plain field (mem_append_left _ hfield)).2 h
    rcases mem_cons.mp hfield with rfl | hfield
    · exact (mem_escape h).2 rfl
    · exact (line.plain field (mem_append_right _ hfield)).2 h

theorem splitOn_printTable (lines : List MountLine) :
    (printTable lines).splitOn 10 = lines.map MountLine.text ++ [[]] := by
  induction lines with
  | nil => rfl
  | cons line lines ih =>
    rw [printTable, flatMap_cons, ← printTable, append_assoc, singleton_append, List.splitOn,
      splitOnP_append_cons_of_forall_mem _ _ (by decide), ← List.splitOn, ih]
    · rfl
    · intro b hb
      refine beq_false_of_ne ?_
      rintro rfl
      exact newline_not_mem_text line hb

theorem foundMounts_printTable (root : Bytes) (lines : List MountLine) :
    foundMounts root (printTable lines) = (lines.map fun line => escape line.point).filter
      (isBelow root) := by
  have hlines : textLines (printTable lines) = lines.map fun line => stripReturn line.text := by
    unfold textLines
    rw [splitOn_printTable]
    simp
  rw [foundMounts, hlines, filterMap_map]
  congr 1
  have hpoint : (mountPoint ∘ fun line : MountLine => stripReturn line.text) = fun line =>
    some (escape line.point) :=
    funext mountPoint_text
  rw [hpoint]
  exact congrFun filterMap_eq_map lines

/-! ### The calls -/

variable {answer : Nat → Option Nat} {points : List Bytes}

theorem unmountAll_front (call : Nat) (points : List Bytes) :
    (unmountAll answer call points).1 <+: points := by
  induction points generalizing call with
  | nil => exact prefix_rfl
  | cons point points ih =>
    rw [unmountAll]
    split
    · exact cons_prefix_cons.mpr ⟨rfl, ih (call + 1)⟩
    · exact cons_prefix_cons.mpr ⟨rfl, nil_prefix⟩

/-- Every path is tried exactly if no failure but the last ends the loop. -/
theorem unmountAll_complete (call : Nat) (points : List Bytes) :
    (unmountAll answer call points).1 = points ↔
    ∀ n, n + 1 < points.length → tolerated (answer (call + n)) = true := by
  induction points generalizing call with
  | nil => simp [unmountAll]
  | cons point points ih =>
    have hshift : (∀ n, n + 1 < (point :: points).length → tolerated (answer (call + n)) = true) ↔
        (points ≠ [] → tolerated (answer call) = true) ∧
          ∀ n, n + 1 < points.length → tolerated (answer (call + 1 + n)) = true := by
      constructor
      · intro h
        refine ⟨fun hne => h 0 ?_, fun n hn => ?_⟩
        · have := length_pos_iff.mpr hne
          simp only [length_cons]
          omega
        · have := h (n + 1) (by simp only [length_cons]; omega)
          rwa [Nat.add_right_comm, Nat.add_assoc]
      · rintro ⟨hfirst, hrest⟩ n hn
        simp only [length_cons] at hn
        cases n with
        | zero => exact hfirst (length_pos_iff.mp (by omega))
        | succ n =>
          have := hrest n (by omega)
          rwa [Nat.add_right_comm, Nat.add_assoc] at this
    rw [hshift, unmountAll]
    split
    · next hanswer =>
      rw [List.cons.injEq, ih]
      simp [hanswer]
    · next hanswer =>
      rw [List.cons.injEq]
      constructor
      · rintro ⟨-, rfl⟩
        simp
      · rintro ⟨hfirst, -⟩
        by_cases hne : points = []
        · exact ⟨rfl, hne.symm⟩
        · exact absurd (hfirst hne) hanswer

/-! ### Every mount below the root -/

/-- The calls are for the mount points below the root, each as often as it is mounted and before any
that it lies below. -/
structure UnmountsExactly (root : Bytes) (points attempts : List Bytes) : Prop where
  exactly : attempts.Perm (points.filter (isBelow root))
  nested_first : attempts.Pairwise fun first second => isBelow first second = false
  below : ∀ attempt ∈ attempts, isBelow root attempt = true

/-- The table can be read, the paths below the root are printed as they are, and no call but the
last fails for a reason of its own. -/
structure Unmountable (answer : Nat → Option Nat) (root : Bytes)
    (lines : List MountLine) : Prop where
  size : (printTable lines).length ≤ MOUNTINFO_BYTES
  utf8 : (String.fromUTF8? ⟨(printTable lines).toArray⟩).isSome
  plain : ∀ line ∈ lines, isBelow root line.point = true ∨ isBelow root (escape line.point) = true →
    ∀ b ∈ line.point, isEscaped b = false
  answers : ∀ n, n + 1 < ((lines.map MountLine.point).filter (isBelow root)).length →
    tolerated (answer n) = true

theorem isBelow_escape (hroot : ∀ b ∈ root, isEscaped b = false) :
    isBelow root (escape path) = isBelow root path := by
  refine isPrefixOf_escape fun b hb => ?_
  rcases mem_append.mp hb with hb | hb
  · exact hroot b hb
  · obtain rfl := mem_singleton.mp hb
    rfl

theorem nested_first_of_sorted
    (h : points.Pairwise fun first second => second.length ≤ first.length) :
    points.Pairwise fun first second => isBelow first second = false := by
  refine h.imp fun hle => ?_
  by_contra hbelow
  have hstart := isPrefixOf_iff_prefix.mp (Bool.not_eq_false _ ▸ hbelow)
  have hlength := hstart.length_le
  simp only [length_append, length_singleton] at hlength
  omega

theorem readBoundedText_ok {name stage : String} {maximum : Nat} {file text : Bytes} :
    readBoundedText name maximum stage file = .ok text ↔
      file.length ≤ maximum ∧ (String.fromUTF8? ⟨file.toArray⟩).isSome ∧ file = text := by
  unfold readBoundedText
  simp only [bind_ok, stop_ok, pure_ok, exists_const, Nat.not_lt]
  have hutf8 : ¬(String.fromUTF8? ⟨file.toArray⟩).isNone = true ↔
    (String.fromUTF8? ⟨file.toArray⟩).isSome = true := by
    cases String.fromUTF8? ⟨file.toArray⟩ <;> simp
  rw [hutf8]

/-- Where everything is printed as it is, the paths that are found are the mount points. -/
theorem foundMounts_of_plain {lines : List MountLine}
    (hplain : ∀ line ∈ lines, isBelow root line.point = true ∨ isBelow root
      (escape line.point) = true → ∀ b ∈ line.point, isEscaped b = false) :
    foundMounts root (printTable lines) = (lines.map MountLine.point).filter (isBelow root) := by
  rw [foundMounts_printTable]
  induction lines with
  | nil => rfl
  | cons line lines ih =>
    have hline := hplain line mem_cons_self
    rw [map_cons, map_cons, filter_cons, filter_cons,
      ih fun other hother => hplain other (mem_cons_of_mem _ hother)]
    by_cases hbelow : isBelow root line.point = true ∨ isBelow root (escape line.point) = true
    · rw [escape_eq_self.mpr (hline hbelow)]
    · rw [not_or] at hbelow
      rw [if_neg hbelow.1, if_neg hbelow.2]

/-- Beneath an ordinary root the paths that are found are the mount points, each as it is printed. -/
theorem foundMounts_of_root (hroot : ∀ b ∈ root, isEscaped b = false) (lines : List MountLine) :
    foundMounts root (printTable lines) =
      ((lines.map MountLine.point).filter (isBelow root)).map escape := by
  rw [foundMounts_printTable, filter_map, filter_map, map_map]
  congr 1
  refine filter_congr fun line _ => ?_
  exact isBelow_escape hroot

theorem sum_length_escape (points : List Bytes) : ((points.map escape).map List.length).sum =
    (points.map List.length).sum + 3 * (points.map fun point => point.countP isEscaped).sum := by
  induction points with
  | nil => rfl
  | cons point points ih =>
    simp only [map_cons, sum_cons, ih, length_escape]
    omega

/-- Escapes make paths longer, so that paths which are the same in some order have none. -/
theorem plain_of_perm (h : (points.map escape).Perm points) : ∀ point ∈ points, ∀ b ∈ point,
    isEscaped b = false := by
  have hlengths := (h.map List.length).sum_eq
  rw [sum_length_escape] at hlengths
  intro point hpoint b hb
  have hle := le_sum_of_mem (mem_map_of_mem (f := fun point : Bytes =>
    point.countP isEscaped) hpoint)
  have hcount : point.countP isEscaped = 0 := by omega
  simpa using countP_eq_zero.mp hcount b hb

theorem unmountForeign_fst (order : LengthSort) {table : Bytes}
    (hread : readBoundedText "/proc/self/mountinfo" MOUNTINFO_BYTES "namespace-unmount" table = .ok table) :
    (unmountForeignMountsBeneath order answer root table).1 =
      (unmountAll answer 0 (order.sort (foundMounts root table))).1 := by
  rw [unmountForeignMountsBeneath, hread]

theorem unmountsExactly_of_unmountable (order : LengthSort) {lines : List MountLine}
    (h : Unmountable answer root lines) :
    UnmountsExactly root (lines.map MountLine.point) (unmountForeignMountsBeneath order answer root
      (printTable lines)).1 := by
  have hperm := order.perm (foundMounts root (printTable lines))
  rw [unmountForeign_fst order (readBoundedText_ok.mpr ⟨h.size, h.utf8, rfl⟩)]
  rw [foundMounts_of_plain h.plain] at hperm ⊢
  have hall : (unmountAll answer 0 (order.sort ((lines.map MountLine.point).filter (isBelow root)))).1 =
      order.sort ((lines.map MountLine.point).filter (isBelow root)) := by
    rw [unmountAll_complete, hperm.length_eq]
    simpa using h.answers
  rw [hall]
  refine ⟨hperm, nested_first_of_sorted (order.sorted _), fun attempt hattempt => ?_⟩
  exact (mem_filter.mp (hperm.mem_iff.mp hattempt)).2

/-- The mounts below the root are unmounted exactly where the table can be read, nothing below the
root has an escape in its path, and no call but the last fails for a reason of its own. This is
needed beneath every root that is printed as it is, unless there is nothing to unmount. -/
theorem foreign_mounts_exact_iff (order : LengthSort) (answer : Nat → Option Nat) (root : Bytes)
    (lines : List MountLine) :
    (Unmountable answer root lines → UnmountsExactly root (lines.map MountLine.point)
      (unmountForeignMountsBeneath order answer root (printTable lines)).1) ∧
    ((∀ b ∈ root, isEscaped b = false) → (UnmountsExactly root (lines.map MountLine.point)
        (unmountForeignMountsBeneath order answer root (printTable lines)).1 ↔
      (lines.map MountLine.point).filter (isBelow root) = [] ∨ Unmountable answer root lines)) := by
  refine ⟨unmountsExactly_of_unmountable order, fun hroot => ⟨fun h => ?_, ?_⟩⟩
  · have hfound := foundMounts_of_root hroot lines
    generalize hbelow : (lines.map MountLine.point).filter (isBelow root) = below at hfound
    have hperm := h.exactly
    rw [hbelow] at hperm
    by_cases hnone : below = []
    · exact .inl hnone
    refine .inr ?_
    cases hread : readBoundedText "/proc/self/mountinfo" MOUNTINFO_BYTES "namespace-unmount"
      (printTable lines) with
    | error e =>
      rw [unmountForeignMountsBeneath, hread] at hperm
      exact absurd hperm.nil_eq.symm hnone
    | ok text =>
      obtain ⟨hsize, hutf8, rfl⟩ := readBoundedText_ok.mp hread
      rw [unmountForeign_fst order hread] at hperm
      have hsorted := order.perm (foundMounts root (printTable lines))
      rw [hfound] at hsorted hperm
      -- as many calls as paths that were found, so all of them
      have hlength : (unmountAll answer 0 (order.sort (below.map escape))).1.length =
        (order.sort (below.map escape)).length := by
        rw [hperm.length_eq, hsorted.length_eq, length_map]
      have hall := (unmountAll_front 0 (order.sort (below.map escape))).eq_of_length hlength
      have hplain := plain_of_perm (hsorted.symm.trans (hall ▸ hperm))
      refine ⟨hsize, hutf8, fun line hline hunder => ?_, ?_⟩
      · rw [isBelow_escape hroot, or_self] at hunder
        refine hplain line.point ?_
        rw [← hbelow]
        exact mem_filter.mpr ⟨mem_map_of_mem hline, hunder⟩
      · have := (unmountAll_complete 0 _).mp hall
        rw [hsorted.length_eq] at this
        rw [hbelow]
        simpa using this
  · rintro (hnone | h)
    · have hempty : (unmountForeignMountsBeneath order answer root (printTable lines)).1 = [] := by
        have hfound := foundMounts_of_root hroot lines
        rw [hnone, map_nil] at hfound
        rw [unmountForeignMountsBeneath]
        split
        · rfl
        · next text hread =>
          obtain ⟨-, -, rfl⟩ := readBoundedText_ok.mp hread
          rw [hfound, perm_nil.mp (order.perm [])]
          rfl
      rw [hempty]
      refine ⟨?_, .nil, fun attempt h => absurd h not_mem_nil⟩
      rw [hnone]
    · exact unmountsExactly_of_unmountable order h

end

namespace MountSample

def byLength : LengthSort where
  sort points := points.insertionSort fun first second => second.length ≤ first.length
  perm points := perm_insertionSort _ points
  sorted points := by
    have htotal : Std.Total fun first second : Bytes => second.length ≤ first.length :=
      ⟨fun a b => Nat.le_total _ _⟩
    have htrans : IsTrans Bytes fun first second => second.length ≤ first.length :=
      ⟨fun a b c h h' => h'.trans h⟩
    exact pairwise_insertionSort _ points

def line (point : Bytes) : MountLine where
  before := [[50, 54], [50, 53], [48, 58, 50, 52], [47]]
  point := point
  after := [[114, 119], [45], [116, 109, 112, 102, 115], [120], [114, 119]]
  before_length := rfl
  after_ne := by simp
  plain := by decide

/-- `/r` -/
def newroot : Bytes := [47, 114]

/-- `/r/a` -/
def ordinary : Bytes := newroot ++ [47, 97]

/-- `/r/a b` -/
def spaced : Bytes := ordinary ++ [32, 98]

end MountSample

open MountSample in
theorem ordinary_mounts_exact : Unmountable (fun _ => none) newroot [line ordinary, line newroot,
    line ordinary] ∧ UnmountsExactly newroot [ordinary, newroot, ordinary]
      (unmountForeignMountsBeneath byLength (fun _ => none) newroot
        (printTable [line ordinary, line newroot, line ordinary])).1 := by
  have h : Unmountable (fun _ => none) newroot [line ordinary, line newroot, line ordinary] :=
    ⟨by decide +kernel, by decide +kernel, by decide +kernel, fun n _ => rfl⟩
  exact ⟨h, (foreign_mounts_exact_iff byLength (fun _ => none) newroot [line ordinary, line newroot,
    line ordinary]).1 h⟩

open MountSample in
/-- The path of a mount with a space in its name is passed on with the escape, and `umount2` finds
nothing there. -/
theorem spaced_mount_missed :
    (unmountForeignMountsBeneath byLength (fun _ => some ENOENT) newroot
      (printTable [line spaced])) =
      ([ordinary ++ [92, 48, 52, 48, 98]], .ok ()) ∧ ¬UnmountsExactly newroot [spaced]
      (unmountForeignMountsBeneath byLength (fun _ => some ENOENT) newroot
        (printTable [line spaced])).1 := by
  have hcalls : unmountForeignMountsBeneath byLength (fun _ => some ENOENT) newroot
    (printTable [line spaced]) =
      ([ordinary ++ [92, 48, 52, 48, 98]], .ok ()) := by decide +kernel
  refine ⟨hcalls, fun h => ?_⟩
  have hexactly := h.exactly
  rw [hcalls] at hexactly
  exact absurd hexactly (by decide +kernel)

end PocketVm.Guest
