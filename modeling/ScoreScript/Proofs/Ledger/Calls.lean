import ScoreScript.Proofs.Ledger.Conforming

/-!
A ledger of calls: it has an account for each open element and for the root, and children are
entered as they come. What calls leave is what the ledger says, so children that are put in order
each time are in the order of one stable sort. Main statement: `children_sorted_once`.
-/

namespace ScoreScript

/-- Accounts of the open elements with the numbers of their scopes, innermost first, and of the
root. -/
structure Ledger where
  opened : List (Nat × Account) := []
  root : Option Account := none
  nextScope : Nat := 0

namespace Ledger

/-- Enter a child where it belongs, or a root. -/
def attach (child : Account) (l : Ledger) : Ledger :=
  match l.opened with
  | [] => { l with root := some child }
  | (scope, top) :: below => { l with opened := (scope, top.arrive child) :: below }

/-- Enter a call, unless it fails. -/
def call (c : Catalogue) (l : Ledger) : Call → Ledger
  | .create id args _ =>
    match (Value.bundle args).toAccount c id with
    | some made => l.attach made
    | none => l
  | .openScope id args _ =>
    match (Value.bundle args).toAccount c id with
    | some made =>
      { l with opened := (l.nextScope, made) :: l.opened, nextScope := l.nextScope + 1 }
    | none => l
  | .close token =>
    match l.opened with
    | (scope, top) :: below =>
      if scope = token.scope then attach top { l with opened := below } else l
    | [] => l

/-- Enter calls one after the other. -/
def ofCalls (c : Catalogue) (calls : List Call) : Ledger :=
  calls.foldl (call c) {}

/-- All accounts that are kept, those of children apart. -/
def accounts (l : Ledger) : List Account :=
  l.opened.map (·.2) ++ l.root.toList

/-- An open element is what is entered for it. -/
structure Tells (entry : Nat × Account) (f : Frame) : Prop where
  scope : f.scope = entry.1
  id : f.id = entry.2.id
  draft : entry.2.Holds f.draft

/-- What is there is what the ledger says. -/
structure Records (l : Ledger) (a : Assembly) : Prop where
  opened : List.Forall₂ Tells l.opened a.frames
  root : a.root.map Element.unmarked = l.root.map Account.element
  nextScope : a.nextScope = l.nextScope

namespace Records

variable {l : Ledger} {a : Assembly} {kit : Kit}

theorem attach (records : l.Records a) {child : Account} {e : Element} (same : child.Draws e)
    (span : Span) : (l.attach child).Records (Assembly.attach span e a).2 := by
  have paired := records.opened
  unfold Ledger.attach
  cases opened : l.opened with
  | nil =>
    rw [opened, List.forall₂_nil_left_iff] at paired
    rw [Assembly.attach_nil paired]
    exact ⟨paired ▸ .nil, congrArg some same, records.nextScope⟩
  | cons entry below =>
    obtain ⟨scope, top⟩ := entry
    rw [opened] at paired
    obtain ⟨f, rest, tells, paired, frames⟩ := List.forall₂_cons_left_iff.1 paired
    rw [Assembly.attach_frame frames]
    have grown := tells.draft.attach same span a.log
    exact ⟨.cons ⟨tells.scope, tells.id, grown⟩ paired, records.root, records.nextScope⟩

theorem withLog (records : l.Records a) (log : Log) : l.Records { a with log } :=
  ⟨records.opened, records.root, records.nextScope⟩

theorem create (records : l.Records a) (id : TypeId) (args : Arguments) (span : Span) :
    (l.call kit.catalogue (.create id args span)).Records
      (Call.run kit a (.create id args span)) := by
  simp only [Call.run, Call.step]
  rcases construct_cases kit.catalogue span id args a.log with
    ⟨e, log, none, failed⟩ | ⟨made, e, log, entered, done, same⟩
  · rw [Assembly.create_failed failed]
    simp only [call, none]
    exact records.withLog log
  · rw [Assembly.create_made done]
    simp only [call, entered]
    exact (records.withLog log).attach same span

theorem openScope (records : l.Records a) (id : TypeId) (args : Arguments) (span : Span) :
    (l.call kit.catalogue (.openScope id args span)).Records
      (Call.run kit a (.openScope id args span)) := by
  rw [Call.run_openScope]
  rcases construct_cases kit.catalogue span id args a.log with
    ⟨e, log, none, failed⟩ | ⟨made, e, log, entered, done, same⟩
  · rw [Assembly.openScope_failed failed]
    simp only [call, none]
    exact records.withLog log
  · have fits := toAccount_conforms _ entered
    rw [Assembly.openScope_made fits.known done]
    simp only [call, entered]
    refine ⟨.cons ⟨records.nextScope, fits.id.symm, rfl, same⟩ records.opened, records.root, ?_⟩
    exact congrArg (· + 1) records.nextScope

theorem close (records : l.Records a) (token : ScopeToken) :
    (l.call kit.catalogue (.close token)).Records (Call.run kit a (.close token)) := by
  have paired := records.opened
  unfold call Call.run Call.step
  cases opened : l.opened with
  | nil =>
    rw [opened, List.forall₂_nil_left_iff] at paired
    rw [Assembly.close_empty kit token paired]
    exact records
  | cons entry below =>
    obtain ⟨scope, top⟩ := entry
    rw [opened] at paired
    obtain ⟨f, rest, tells, paired, frames⟩ := List.forall₂_cons_left_iff.1 paired
    by_cases same : scope = token.scope
    · rw [Assembly.close_top kit token frames (tells.scope.trans same)]
      simp only [if_pos same]
      -- Closing checks the element first, and checks show in marks only.
      have drawn := (f.draft.check_keeps .strict f.span a.log).2.trans tells.draft.element
      have under : Records { l with opened := below }
          { a with frames := rest, log := (f.draft.check .strict f.span a.log).2 } :=
        ⟨paired, records.root, records.nextScope⟩
      exact under.attach drawn f.span
    · rw [Assembly.close_other kit token frames (tells.scope.trans_ne same)]
      simp only [if_neg same]
      exact records

theorem run (records : l.Records a) (called : Call) :
    (l.call kit.catalogue called).Records (Call.run kit a called) := by
  cases called with
  | create id args span => exact records.create id args span
  | openScope id args span => exact records.openScope id args span
  | close token => exact records.close token

end Records

theorem records_runAll (kit : Kit) {l : Ledger} {a : Assembly} (records : l.Records a)
    (calls : List Call) : (calls.foldl (call kit.catalogue) l).Records (a.runAll kit calls) := by
  induction calls generalizing l a with
  | nil => exact records
  | cons called rest ih => exact ih (records.run called)

theorem records_start (registry : Registry) : Records {} (.start registry) :=
  ⟨.nil, rfl, rfl⟩

/-- What calls leave is what the ledger of the calls says. -/
theorem records_ofCalls (kit : Kit) (registry : Registry) (calls : List Call) :
    (ofCalls kit.catalogue calls).Records ((Assembly.start registry).runAll kit calls) :=
  records_runAll kit (records_start registry) calls

/-- All accounts are of types in the catalogue, which give their elements what they have. -/
structure Fits (c : Catalogue) (l : Ledger) : Prop where
  opened : ∀ entry ∈ l.opened, entry.2.Fits c entry.2.id
  root : ∀ root ∈ l.root, root.Fits c root.id

namespace Fits

variable {c : Catalogue} {l : Ledger}

theorem everywhere (fits : l.Fits c) :
    ∀ account ∈ l.accounts, account.Everywhere (Account.Conforms c) := by
  intro account kept
  rcases List.mem_append.1 kept with opened | root
  · obtain ⟨entry, member, rfl⟩ := List.mem_map.1 opened
    exact (fits.opened entry member).conforms
  · exact (fits.root account (Option.mem_toList.1 root)).conforms

theorem attach (fits : l.Fits c) {child : Account} {id : TypeId} (made : child.Fits c id) :
    (l.attach child).Fits c := by
  have opened := fits.opened
  unfold Ledger.attach
  split
  · refine ⟨opened, fun root same => ?_⟩
    cases same
    exact made.id ▸ made
  · rename_i scope top below entries
    rw [entries] at opened
    obtain ⟨here, under⟩ := List.forall_mem_cons.1 opened
    have grown : (top.arrive child).Fits c top.id :=
      here.arrive made.conforms fun field same => by
        rw [made.free] at same
        cases same
    exact ⟨List.forall_mem_cons.2 ⟨grown, under⟩, fits.root⟩

theorem call (fits : l.Fits c) (called : Call) : (l.call c called).Fits c := by
  cases called with
  | create id args span =>
    simp only [Ledger.call]
    split
    · rename_i made entered
      exact fits.attach (toAccount_conforms _ entered)
    · exact fits
  | openScope id args span =>
    simp only [Ledger.call]
    split
    · rename_i made entered
      have here := toAccount_conforms _ entered
      exact ⟨List.forall_mem_cons.2 ⟨here.id ▸ here, fits.opened⟩, fits.root⟩
    · exact fits
  | close token =>
    have opened := fits.opened
    simp only [Ledger.call]
    split
    · rename_i scope top below entries
      rw [entries] at opened
      obtain ⟨here, under⟩ := List.forall_mem_cons.1 opened
      split
      · have rest : Ledger.Fits c { l with opened := below } := ⟨under, fits.root⟩
        exact rest.attach here
      · exact fits
    · exact fits

end Fits

theorem fits_ofCalls (c : Catalogue) (calls : List Call) : (ofCalls c calls).Fits c := by
  have kept (calls : List Call) : ∀ l : Ledger, l.Fits c → (calls.foldl (call c) l).Fits c := by
    induction calls with
    | nil => exact fun _ fits => fits
    | cons called rest ih => exact fun l fits => ih _ (fits.call called)
  exact kept calls {} ⟨nofun, nofun⟩

/-- The document that is finished is what the account of the root says. -/
theorem Records.finish {l : Ledger} {a a' : Assembly} {kit : Kit} (records : l.Records a)
    {d : Document} {found : List Diagnostic}
    (finished : (Assembly.finish kit).run a = (.ok (d, found), a')) :
    ∃ root, l.root = some root ∧ root.Draws d.root := by
  obtain ⟨root, there, same⟩ := Assembly.root_of_finish finished
  have drawn := records.root
  rw [there] at drawn
  obtain ⟨account, entered, drawn⟩ := Option.map_eq_some_iff.1 drawn.symm
  exact ⟨account, entered, same.trans drawn.symm⟩

end Ledger

/-! ### The order of children -/

/-- Children that are put in order each time when one comes are in order as if they were put in
order once. -/
theorem Element.children_foldl {order : List String} {e : Element}
    (inPlace : sorted order e.children = e.children) (children : List Element) :
    (children.foldl (fun e child => (e.addChild child).sortChildren order) e).children =
      sorted order (e.children ++ children) := by
  induction children generalizing e with
  | nil => rw [List.foldl_nil, List.append_nil, inPlace]
  | cons child rest ih =>
    have grown : ((e.addChild child).sortChildren order).children =
        sorted order (e.children ++ [child]) := children_sortChildren order (e.addChild child)
    have again : sorted order ((e.addChild child).sortChildren order).children =
        ((e.addChild child).sortChildren order).children := by
      rw [← children_sortChildren, sortChildren_sortChildren]
    rw [List.foldl_cons, ih again, grown, sorted_append, List.append_assoc, List.singleton_append]

/-- Putting children in order is a stable sort by the places of their tags in the order, and changes
nothing else. Whatever calls leave, the children of each element are in the order of one stable sort
of those that came, however often they were put in order meanwhile. -/
theorem children_sorted_once :
    (∀ (order : List String) (e : Element),
      StableSort (fun c => Element.rank order c.tag) e.children (e.sortChildren order).children ∧
      (e.sortChildren order).tag = e.tag ∧ (e.sortChildren order).attributes = e.attributes ∧
      (e.sortChildren order).text = e.text ∧
      (e.sortChildren order).sortChildren order = e.sortChildren order) ∧
    (∀ (before after : List String) (tag : String), tag ∉ before →
      Element.rank (before ++ tag :: after) tag = before.length) ∧
    (∀ (order : List String) (tag : String), tag ∉ order →
      ∀ listed ∈ order, Element.rank order listed < Element.rank order tag) ∧
    (∀ (order : List String) (tag : String) (children : List Element),
      (children.foldl (fun (e : Element) child => (e.addChild child).sortChildren order)
        (Element.empty tag)).children = Element.sorted order children) ∧
    ∀ (kit : Kit) (registry : Registry) (calls : List Call),
      let a := (Assembly.start registry).runAll kit calls
      let l := Ledger.ofCalls kit.catalogue calls
      l.Records a ∧
      (∀ d found a', (Assembly.finish kit).run a = (.ok (d, found), a') →
        ∃ root, l.root = some root ∧ root.Draws d.root) ∧
      ∀ account ∈ l.accounts, account.Everywhere fun n =>
        kit.catalogue.get? n.id = some n.type ∧
        StableSort (fun c => Element.rank n.type.order c.tag) (n.arrivals.map Account.element)
          n.element.children := by
  refine ⟨fun order e => ?_, fun _ after _ new => Element.rank_of_listed new after,
    fun _ _ unlisted => (Element.rank_of_unlisted unlisted).2, fun order tag => ?_,
    fun kit registry calls => ?_⟩
  · obtain ⟨tag, attributes, text⟩ := e.sortChildren_keeps order
    exact ⟨e.stableSort_sortChildren order, tag, attributes, text,
      e.sortChildren_sortChildren order⟩
  · exact Element.children_foldl (Element.sorted_nil order)
  · have records := Ledger.records_ofCalls kit registry calls
    have conforms := (Ledger.fits_ofCalls kit.catalogue calls).everywhere
    refine ⟨records, fun d found a' => records.finish, fun account kept n inside => ?_⟩
    refine ⟨(conforms account kept n inside).known, ?_⟩
    rw [Account.element_eq n]
    exact Element.stableSort_sorted n.type.order _

end ScoreScript
