import SchemaForge.Proofs.Generation.Isolation
import SchemaForge.Proofs.Path
set_option autoImplicit false

/-!
# The output directory of a plugin

A plugin is told to write into the directory with its name in the output directory of the run. The
name comes from the plugin itself, and it is joined to the output directory as a path. So where the
plugin writes depends on the name: it may be a path of several names, but it may also lead back to
the output directory, out of it, or to some other place altogether.

## Main results

* `SchemaForge.GenerationOptions.output?_scopedFor` — where a plugin is told to write.
* `SchemaForge.GenerationOptions.strictlyBelow_output_iff` — the names of the plugins that are told
  to write strictly below the output directory.
* `SchemaForge.GenerationOptions.output_not_strictlyBelow` — names of other plugins.
-/

namespace SchemaForge.GenerationOptions

open SchemaForge.Path

variable {options : GenerationOptions} {plugin root : String}

/-- A plugin is told to write into the directory with its name in the output directory. -/
theorem output?_scopedFor (h : options.output? = some root) (plugin : String) :
    (options.scopedFor plugin).output? = some (join root plugin) := by
  have hkeys : outputKey ≠ packageCyclesKey := by decide
  rw [output?, get?, getAll, get?_scopedFor_ite, if_neg hkeys, if_pos rfl, h]
  rfl

/-- **Where plugins write.** Let there be an output directory. Then a plugin is told to write into
the directory with its name in the output directory. If the name is not an absolute path, and the
output directory is not the empty path, this has the components of the output directory and those of
the name, save a `.` at its beginning. It is strictly below the output directory just if the name
adds at least one component and nothing but names, or the name is an absolute path that is strictly
below the output directory itself. So it is for each name that is a path of names.

**Proof sketch.** The run puts the joined path in last (`output?_scopedFor`), and the components of
a joined path are known (`Path.components_join`). -/
theorem strictlyBelow_output_iff (h : options.output? = some root) (plugin : String) :
    (options.scopedFor plugin).output? = some (join root plugin) ∧
      (root ≠ "" → isAbsolute plugin = false →
        components (join root plugin) =
          components root ++ (components plugin).filter (· ≠ .current)) ∧
      (StrictlyBelow (join root plugin) root ↔
        if isAbsolute plugin = true then StrictlyBelow plugin root
        else if root = "" then OnlyNames (components plugin)
        else OnlyNames ((components plugin).filter (· ≠ .current))) ∧
      (isBelow plugin = true → components plugin ≠ [] → StrictlyBelow (join root plugin) root) :=
  ⟨output?_scopedFor h plugin, components_join, strictlyBelow_join_iff root plugin,
    strictlyBelow_join_of_isBelow root⟩

/-- Options with nothing but an output directory. -/
def outputOnly (root : String) : GenerationOptions := .ofPairs [("gen_output", root)]

/-- A name of several segments, of which one says nothing, in an output directory that ends in such
a segment. -/
theorem strictlyBelow_output_of_dots :
    (outputOnly "out/.").output? = some "out/." ∧
      ((outputOnly "out/.").scopedFor "./a/./b").output? = some "out/././a/./b" ∧
      components "out/././a/./b" = [.name "out", .name "a", .name "b"] ∧
      StrictlyBelow "out/././a/./b" "out/." := by
  have houtput : (outputOnly "out/.").output? = some "out/." := by decide
  obtain ⟨hgiven, hcomponents, hbelow, -⟩ := strictlyBelow_output_iff houtput "./a/./b"
  have hjoin : join "out/." "./a/./b" = "out/././a/./b" := by decide
  rw [hjoin] at hgiven hcomponents hbelow
  refine ⟨houtput, hgiven, ?_, hbelow.2 (by decide)⟩
  rw [hcomponents (by decide) (by decide)]
  decide

/-- A plugin may have a name that leads to the output directory itself, out of it, or away from
it. -/
theorem output_not_strictlyBelow :
    (outputOnly "out").output? = some "out" ∧
      ∀ given ∈ [("", "out/"), (".", "out/."), ("..", "out/.."), ("/etc", "/etc")],
        ((outputOnly "out").scopedFor given.1).output? = some given.2 ∧
          ¬ StrictlyBelow given.2 "out" := by
  decide

end SchemaForge.GenerationOptions
