import OtaJobs.CMemory
import OtaJobs.JobBuilders
import OtaJobs.TopicMatching
import OtaJobs.OtaDemo
import OtaJobs.BlockDownload
import OtaJobs.JobStart
import OtaJobs.Transport
import OtaJobs.Main
import OtaJobs.Arrivals
import OtaJobs.DemoRuns
import OtaJobs.MqttWrapper
import OtaJobs.AppTasks
