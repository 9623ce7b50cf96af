import RT7.Kernel.Patches

/-!
# The patches of the repository (`patches/kernel`, `patches/modules`)

* `keptBy_of_file`, `keptBy_of_core`   two reasons for which a patch keeps the block of another one;
* `kernelSeries`, `modulesSeries`      the two series; the kernel patches lie in files of their own,
  the two module patches share a header;
* `kernelSeries_idempotent`, `modulesSeries_idempotent`   both can be run again, on every checkout and
  wherever `git apply` finds their places.
-/

namespace RT7.Kernel

open Blocks Shell

variable {git : Git} {p q : Patch} {s t : Source} {core core' pre post : List String}

theorem keptBy_of_file (h : p.file ≠ q.file) : KeptBy git.calls p q := by
  refine keptBy_calls.mpr fun u v hu hput => ?_
  obtain ⟨lines, hfile, hnew⟩ := hu
  obtain ⟨_, i, -, -, rfl⟩ := Git.apply_eq_some.mp hput
  exact ⟨lines, (Function.update_of_ne h _ u.files).trans hfile, hnew⟩

/-- The patches touch, but in lines that the later one keeps. -/
theorem keptBy_of_core (hold : q.old = pre ++ (core ++ post)) (hnew : q.new = pre ++ (core' ++ post))
    (hne : core ≠ []) (hcore : ∀ x ∈ core, x ∉ p.new) : KeptBy git.calls p q := by
  refine keptBy_calls.mpr fun u v hu hput => ?_
  by_cases hfile : p.file = q.file
  · obtain ⟨lines, hlines, hblock⟩ := hu
    obtain ⟨lines', i, hlines', hi, rfl⟩ := Git.apply_eq_some.mp hput
    have heq : lines' = lines := by
      rw [hfile, hlines'] at hlines
      exact Option.some.inj hlines
    subst heq
    have hat := git.found hi
    have hkept : p.new <:+: splice lines' i q.old.length q.new := by
      rw [hold] at hat ⊢
      rw [hnew]
      exact infix_splice_of_core hne hcore hat hblock
    refine ⟨_, ?_, hkept⟩
    dsimp only
    rw [hfile, Function.update_self]
  · exact keptBy_calls.mp (keptBy_of_file hfile) u v hu hput

/-- `0001-sched-guard-rt-pull-with-walt.patch` -/
def schedGuard : Patch where
  file := "kernel/sched/fair.c"
  oldStart := 11568
  old :=
    [" * idle_balance is called by schedule() if this_cpu is about to become",
     " * idle. Attempts to pull tasks from other CPUs.", " */",
     "#ifdef OPLUS_FEATURE_SCHED_ASSIST", "#define WALT_RT_PULL_THRESHOLD_NS 80000",
     "bool is_same_cluster(int src_cpu, int this_cpu)", "\x7b"]
  newStart := 11568
  new :=
    [" * idle_balance is called by schedule() if this_cpu is about to become",
     " * idle. Attempts to pull tasks from other CPUs.", " */",
     "#if defined(OPLUS_FEATURE_SCHED_ASSIST) && defined(CONFIG_SCHED_WALT)",
     "#define WALT_RT_PULL_THRESHOLD_NS 80000",
     "bool is_same_cluster(int src_cpu, int this_cpu)", "\x7b"]

/-- `0002-ion-include-healthinfo-declarations.patch` -/
def ionHealthinfo : Patch where
  file := "drivers/staging/android/mtk_ion/ion.c"
  oldStart := 54
  old :=
    ["#include <linux/healthinfo/memory_monitor.h>", "#endif /*OPLUS_FEATURE_HEALTHINFO*/", "",
     "#if defined(OPLUS_FEATURE_HEALTHINFO) && defined(CONFIG_OPLUS_HEALTHINFO)",
     "#include <linux/healthinfo/ion.h>", "#endif", "#ifdef CONFIG_MTK_IOMMU_V2"]
  newStart := 54
  new :=
    ["#include <linux/healthinfo/memory_monitor.h>", "#endif /*OPLUS_FEATURE_HEALTHINFO*/", "",
     "#ifdef OPLUS_FEATURE_HEALTHINFO", "#include <linux/healthinfo/ion.h>", "#endif",
     "#ifdef CONFIG_MTK_IOMMU_V2"]

/-- `0003-sched-provide-slide-tunables-without-walt.patch` -/
def slideTunables : Patch where
  file := "kernel/sched/tune.c"
  oldStart := 15
  old :=
    ["bool schedtune_initialized = false;", "extern struct reciprocal_value schedtune_spc_rdiv;",
     "", "/* We hold schedtune boost in effect for at least this long */",
     "#define SCHEDTUNE_BOOST_HOLD_NS 50000000ULL", ""]
  newStart := 15
  new :=
    ["bool schedtune_initialized = false;", "extern struct reciprocal_value schedtune_spc_rdiv;",
     "", "/*", " * sched_assist_slide_v1.c normally owns these tunables, but that object is",
     " * only built with WALT. The RT7 stock configuration deliberately omits WALT.", " */",
     "#ifndef CONFIG_SCHED_WALT", "int sysctl_slide_boost_enabled;",
     "int sysctl_boost_task_threshold = 51;", "#endif", "",
     "/* We hold schedtune boost in effect for at least this long */",
     "#define SCHEDTUNE_BOOST_HOLD_NS 50000000ULL", ""]

/-- `0004-rgbled-stub-disabled-oplus-healthinfo.patch` -/
def rgbledStub : Patch where
  file := "drivers/misc/mediatek/pmic/mt6360/v1/pmu/mt6360_pmu_rgbled.c"
  oldStart := 49
  old :=
    ["\tunsigned long long old_time;", "\x7d;",
     "extern int oplus_misc_healthinfo(int type, int para, int bright);", "",
     "static const struct mt6360_rgbled_platform_data def_platform_data = \x7b", "\x7d;"]
  newStart := 49
  new :=
    ["\tunsigned long long old_time;", "\x7d;", "#ifdef CONFIG_OPLUS_MISC_HEALTHONFO",
     "extern int oplus_misc_healthinfo(int type, int para, int bright);", "#else",
     "static inline int oplus_misc_healthinfo(int type, int para, int bright)", "\x7b",
     "\t(void)type;", "\t(void)para;", "\t(void)bright;", "\treturn 0;", "\x7d", "#endif", "",
     "static const struct mt6360_rgbled_platform_data def_platform_data = \x7b", "\x7d;"]

/-- `0005-imgsensor-link-common-eeprom-service.patch` -/
def eepromService : Patch where
  file := "drivers/misc/mediatek/imgsensor/src/mt6853/Makefile"
  oldStart := 35
  old :=
    ["", "#ifdef OPLUS_FEATURE_CAMERA_COMMON",
     "obj-y\t\t\t\t+= ../OplusImgsensor/imgsensor_eeprom.o",
     "obj-y\t\t\t\t+= ../OplusImgsensor/imgsensor_hwcfg_custom.o", "",
     "obj-y\t\t\t\t+= ../OplusImgsensor/imgsensor_hwcfg_mt6853.o"]
  newStart := 35
  new :=
    ["", "#ifdef OPLUS_FEATURE_CAMERA_COMMON",
     "obj-y\t\t\t\t+= ../OplusImgsensor/imgsensor_eeprom.o",
     "obj-y\t\t\t\t+= ../common/$(COMMON_VERSION)/imgsensor_eeprom_v1.o",
     "obj-y\t\t\t\t+= ../OplusImgsensor/imgsensor_hwcfg_custom.o", "",
     "obj-y\t\t\t\t+= ../OplusImgsensor/imgsensor_hwcfg_mt6853.o"]

/-- `0001-audio-stub-disabled-sia-pa-controls.patch` -/
def siaPaControls : Patch where
  file := "vendor/oplus/kernel_4.19/audio/sia81xx/sia81xx_aux_dev_if.h"
  oldStart := 36
  old :=
    ["#ifdef CONFIG_SIA_PA_ALGO", "extern void sia81xx_start(void);",
     "extern void sia81xx_stop(void);", "#endif /*CONFIG_SIA_PA_ALGO*/",
     "#endif /* OPLUS_BUG_COMPATIBILITY */", ""]
  newStart := 36
  new :=
    ["#ifdef CONFIG_SIA_PA_ALGO", "extern void sia81xx_start(void);",
     "extern void sia81xx_stop(void);", "#else",
     "static inline void sia81xx_start(void) \x7b \x7d",
     "static inline void sia81xx_stop(void) \x7b \x7d", "#endif /*CONFIG_SIA_PA_ALGO*/",
     "#endif /* OPLUS_BUG_COMPATIBILITY */", ""]

/-- `0002-audio-stub-disabled-sia-aux-init.patch` -/
def siaAuxInit : Patch where
  file := "vendor/oplus/kernel_4.19/audio/sia81xx/sia81xx_aux_dev_if.h"
  oldStart := 27
  old :=
    ["\tstruct snd_soc_codec_conf *codec_conf,", "\tu32 conf_num);", "",
     "int soc_aux_init_only_sia81xx(", "\tstruct platform_device *pdev,",
     "\tstruct snd_soc_card *card);", "", "#ifdef OPLUS_BUG_COMPATIBILITY",
     "#ifdef CONFIG_SIA_PA_ALGO"]
  newStart := 27
  new :=
    ["\tstruct snd_soc_codec_conf *codec_conf,", "\tu32 conf_num);", "",
     "#if defined(CONFIG_SIA_PA_ALGO) || defined(CONFIG_SIA_PA_ALGO_MT6833)",
     "int soc_aux_init_only_sia81xx(", "\tstruct platform_device *pdev,",
     "\tstruct snd_soc_card *card);", "#else", "static inline int soc_aux_init_only_sia81xx(",
     "\tstruct platform_device *pdev,", "\tstruct snd_soc_card *card)", "\x7b", "\t(void)pdev;",
     "\t(void)card;", "\treturn 0;", "\x7d", "#endif", "", "#ifdef OPLUS_BUG_COMPATIBILITY",
     "#ifdef CONFIG_SIA_PA_ALGO"]

def kernelSeries : List Patch := [schedGuard, ionHealthinfo, slideTunables, rgbledStub, eepromService]

def modulesSeries : List Patch := [siaPaControls, siaAuxInit]

theorem kernelSeries_apart : kernelSeries.Pairwise fun p q => p.file ≠ q.file := by decide +kernel

theorem siaAuxInit_keeps : KeptBy git.calls siaPaControls siaAuxInit := by
  have hold : siaAuxInit.old = siaAuxInit.old.take 3 ++
      ((siaAuxInit.old.drop 3).take 3 ++ siaAuxInit.old.drop 6) := rfl
  have hnew : siaAuxInit.new = siaAuxInit.old.take 3 ++
      ((siaAuxInit.new.drop 3).take 14 ++ siaAuxInit.old.drop 6) := rfl
  have hcore : ∀ x ∈ (siaAuxInit.old.drop 3).take 3, x ∉ siaPaControls.new := by decide +kernel
  exact keptBy_of_core hold hnew (List.cons_ne_nil _ _) hcore

theorem kernelSeries_idempotent (hfirst : Yields (applySeries git.calls (some kernelSeries)) s () t) :
    ∃ k, (applySeries git.calls (some kernelSeries)).undisturbed t = .done () k t :=
  applySeries_idempotent (kernelSeries_apart.imp keptBy_of_file) hfirst

theorem modulesSeries_idempotent (hfirst : Yields (applySeries git.calls (some modulesSeries)) s () t) :
    ∃ k, (applySeries git.calls (some modulesSeries)).undisturbed t = .done () k t :=
  applySeries_idempotent (List.pairwise_pair.mpr siaAuxInit_keeps) hfirst

end RT7.Kernel
